import DenseBench.Proofs.Run.Options
import DenseBench.Proofs.Run.Seeds
import DenseBench.Proofs.Run.Stage

/-!
# Repeating a run from its record

A saved record holds the configuration and the seed of its run. The options written from it are
accepted under any settings, and the run that they configure comes to the same outcome.
-/

namespace DenseBench

open Run

namespace Run

/-- The record tells the configuration and the seed of the bench. -/
structure Record.Tells (r : Record) (bench : Bench) : Prop where
  script : r.script = bench.config.script
  engine : r.engine = bench.config.engine
  dtype : r.dtype = bench.config.dtype
  sizes : r.sizes = bench.config.sizes
  seed : r.seed = bench.seed

theorem Bench.tells_of_result {bench : Bench} {summary : String} {now : Calendar.Timestamp}
    {host : Host} {r : Record} (h : bench.result summary now host = .ok r) :
    r.Tells bench ∧ r.summary = summary := by
  unfold Bench.result at h
  split at h
  · cases h
  · cases h
    exact ⟨⟨rfl, rfl, rfl, rfl, rfl⟩, rfl⟩

theorem Bench.result_of_save {bench : Bench} {summary : String} {around : Surroundings}
    {scene : Scene} {r : Record}
    (h : (bench.save (m := Stage) summary Machine.now Machine.host around scene).1 =
      .ok (some r)) :
    bench.result summary around.now around.host = .ok r := by
  rw [Bench.save_apply] at h
  split at h
  · cases h
  cases hresult : bench.result summary around.now around.host with
  | error e =>
    rw [hresult] at h
    cases h
  | ok saved =>
    rw [hresult] at h
    dsimp only at h
    cases hwrite :
        (saved.writeTo (m := Stage) bench.config.json bench.config.csv around scene).1 with
    | error e =>
      rw [hwrite] at h
      cases h
    | ok _ =>
      rw [hwrite] at h
      cases h
      rfl

end Run

namespace CommandLine

theorem plan_eq_ok {name : String} {options : List String} {settings : Settings} {w : Workload}
    {config : Config} (h : plan name options settings = .ok (w, config)) :
    Config.ofOptions w.name options settings w.defaultSizes = .ok config := by
  unfold plan at h
  split at h
  · cases h
  · split at h
    · cases h
    · rename_i hconfig
      cases h
      exact hconfig

theorem tells_of_conclude {bench : Bench} {outcome : Workload.Outcome Float}
    {around : Surroundings} {files : FileTree} {r : Record}
    (h : (aftermath (conclude bench outcome) around files).result = .ok (some r)) :
    r.Tells bench ∧ r.summary = outcome.summary := by
  change (conclude (m := Stage) bench outcome around { files := files }).1 = .ok (some r) at h
  cases hline : bench.reportLine with
  | error e =>
    rw [conclude, hline] at h
    cases h
  | ok line =>
    rw [conclude_apply hline] at h
    exact Bench.tells_of_result (Bench.result_of_save h)

/-- What a record was made from: the plan and the outcome of its run. -/
theorem exists_run_of_saved {around : Surroundings} {name : String} {options : List String}
    {settings : Settings} {files : FileTree} {r : Record}
    (h : (runWorkload around name options settings files).result = .ok (some r)) :
    ∃ w config outcome, plan name options settings = .ok (w, config) ∧
      (w.run (α := Float) around.started around.stopped
        (.ofConfig config around.freshSeed around.pool)).1 = .ok outcome ∧
      r.Tells (.ofConfig config around.freshSeed around.pool) ∧ r.summary = outcome.summary := by
  rcases runWorkload_cases around name options settings with ⟨e, hfails⟩ | ⟨⟨m⟩⟩
  · rw [hfails] at h
    cases h
  · rw [m.runWorkload_eq] at h
    obtain ⟨htells, hsummary⟩ := tells_of_conclude h
    have htold : r.Tells (.ofConfig m.config around.freshSeed around.pool) :=
      ⟨htells.script.trans (congrArg Config.script m.config_finished),
        htells.engine.trans (congrArg Config.engine m.config_finished),
        htells.dtype.trans (congrArg Config.dtype m.config_finished),
        htells.sizes.trans (congrArg Config.sizes m.config_finished),
        htells.seed.trans m.seed_finished⟩
    refine ⟨m.workload, m.config, m.outcome, m.planned, ?_, htold, hsummary⟩
    rw [← m.bench_eq, m.ran]

end CommandLine

/-- The benches of a run and of its repetition. Different pools may be asked to count different
pieces only while numbers of points are exact. -/
theorem Run.Record.Tells.alike {r : Record} {config config' : Config} {fresh fresh' : UInt64}
    {pool pool' : Nat → Schedule} {w : Workload} (htells : r.Tells (.ofConfig config fresh pool))
    (htells' : r.Tells (.ofConfig config' fresh' pool'))
    (hpools : r.engine = .reference ∨ pool' = pool ∨ w.countLength r.sizes ≤ 2 ^ 53) :
    (Bench.ofConfig config fresh pool).Alike Float w r.sizes (.ofConfig config' fresh' pool') := by
  have hengine : config.engine = r.engine := htells.engine.symm
  have hengine' : config'.engine = r.engine := htells'.engine.symm
  refine Bench.alike_ofConfig htells.sizes.symm htells'.sizes.symm
    (htells.dtype.symm.trans htells'.dtype) (htells.seed.symm.trans htells'.seed) fun calls => ?_
  simp only [Bench.engine, Bench.ofConfig, hengine, hengine']
  cases hkind : r.engine with
  | reference => exact .refl _
  | parallel =>
    rcases hpools with hreference | rfl | hcount
    · rw [hkind] at hreference
      cases hreference
    · exact .refl _
    · exact .parallel _ _ hcount

namespace CommandLine

/-- A saved record is enough to repeat its run. On the parallel engine another pool may cut a
reduction elsewhere, which changes nothing while the numbers of points are exact; beyond `2^53`
points an array has more bytes than there are addresses. -/
theorem repeat_of_saved {around : Surroundings} {name : String} {options : List String}
    {settings : Settings} {files : FileTree} {r : Record}
    (hsaved : (runWorkload around name options settings files).result = .ok (some r)) :
    ∃ (w : Workload) (config : Config) (outcome : Workload.Outcome Float),
      plan name options settings = .ok (w, config) ∧ r.script = w.name ∧
      (w.run (α := Float) around.started around.stopped
        (.ofConfig config around.freshSeed around.pool)).1 = .ok outcome ∧
      r.summary = outcome.summary ∧
      ∀ settings' : Settings, ∃ config',
        Config.ofOptions r.script
          ["--size=" ++ r.sizeLabel, "--dtype=" ++ r.dtype.name, "--engine=" ++ r.engine.name,
            "--seed=" ++ Text.numeralText r.seed.toNat] settings' w.defaultSizes = .ok config' ∧
        config'.script = r.script ∧ config'.sizes = r.sizes ∧ config'.dtype = r.dtype ∧
        config'.engine = r.engine ∧ config'.seed = some r.seed ∧
        ∀ (fresh' : UInt64) (pool' : Nat → Schedule) (started' stopped' : Instant),
          r.engine = .reference ∨ pool' = around.pool ∨ w.countLength r.sizes ≤ 2 ^ 53 →
          (w.run (α := Float) started' stopped' (.ofConfig config' fresh' pool')).1 =
            .ok outcome := by
  obtain ⟨w, config, outcome, hplan, hrun, htells, hsummary⟩ := exists_run_of_saved hsaved
  obtain ⟨hscript, hne, hpos⟩ := Config.of_ofOptions (plan_eq_ok hplan)
  have hsizes : r.sizes = config.sizes := htells.sizes
  refine ⟨w, config, outcome, hplan, htells.script.trans hscript, hrun, hsummary, ?_⟩
  intro settings'
  rw [← hsizes] at hne hpos
  refine ⟨r.config settings', Record.ofOptions_options hne hpos settings' w.defaultSizes, rfl, rfl,
    rfl, rfl, rfl, ?_⟩
  intro fresh' pool' started' stopped' hpools
  have htells' : r.Tells (.ofConfig (r.config settings') fresh' pool') := ⟨rfl, rfl, rfl, rfl, rfl⟩
  have halike := htells.alike htells' hpools
  rw [← hrun]
  exact (Workload.run_alike halike around.started around.stopped started' stopped').1.symm

/-- A machine to run a few points on. -/
def plainSurroundings : Surroundings where
  freshSeed := 5
  pool _ := .sequential
  started := 0
  stopped := 1
  now := ⟨0, 0⟩
  host := ⟨"host", "os", "cpu", 1, 1, 1, "commit", false⟩

theorem repeat_of_saved_fewPoints :
    ∃ r, (runWorkload plainSurroundings "mc" ["--size=3*2", "--json=points.json"]
        { engine := .parallel } {}).result = .ok (some r) ∧
      ∃ outcome : Workload.Outcome Float, r.summary = outcome.summary ∧
        ∀ pool' : Nat → Schedule, ∃ w : Workload, ∃ config',
          Config.ofOptions r.script
            ["--size=" ++ r.sizeLabel, "--dtype=" ++ r.dtype.name, "--engine=" ++ r.engine.name,
              "--seed=" ++ Text.numeralText r.seed.toNat] {} w.defaultSizes = .ok config' ∧
          (w.run (α := Float) 3 4 (.ofConfig config' 0 pool')).1 = .ok outcome := by
  have hrun : (runWorkload plainSurroundings "mc" ["--size=3*2", "--json=points.json"]
      { engine := .parallel } {}).result.toOption.join.map Run.Record.sizes = some [3, 2] := by
    decide +kernel
  generalize hsaved : (runWorkload plainSurroundings "mc" ["--size=3*2", "--json=points.json"]
    { engine := .parallel } {}).result = result at hrun ⊢
  rcases result with _ | _ | r
  · cases hrun
  · cases hrun
  · obtain ⟨w, config, outcome, -, -, -, hsummary, hrepeat⟩ := repeat_of_saved hsaved
    obtain ⟨config', hconfig, -, -, -, -, -, hsame⟩ := hrepeat {}
    have hcount : w.countLength r.sizes ≤ 2 ^ 53 := by
      rw [Option.some.inj hrun]
      cases w <;> decide
    exact ⟨r, rfl, outcome, hsummary, fun pool' =>
      ⟨w, config', hconfig, hsame 0 pool' 3 4 (.inr (.inr hcount))⟩⟩

end CommandLine

end DenseBench
