import DenseBench.CommandLine
import DenseBench.Proofs.Run.Frame
import DenseBench.Proofs.Run.Outputs

/-!
# Commands on a stage

What a command does on a stage is what its parts do: a plan, a bench, a run between two readings of
the clock, a line, and writes that do to the files of the scene what they do to files alone.
-/

namespace DenseBench

open Run

namespace Run

theorem Stage.bind_apply {β γ : Type} (step : ExceptT Error Stage β)
    (next : β → ExceptT Error Stage γ) (around : Surroundings) (scene : Scene) :
    (step >>= next) around scene =
      match step around scene with
      | (.ok value, after) => next value around after
      | (.error e, after) => (.error e, after) := by
  change ExceptT.bindCont next (step around scene).1 around (step around scene).2 = _
  rcases step around scene with ⟨_ | _, _⟩ <;> rfl

namespace Stage

variable {β γ : Type} (around : Surroundings) (scene : Scene)

theorem lift_bind_apply (step : Stage β) (next : β → ExceptT Error Stage γ) :
    ((liftM step : ExceptT Error Stage β) >>= next) around scene =
      next (step around scene).1 around (step around scene).2 :=
  rfl

theorem freshSeed_apply :
    (Machine.freshSeed : Stage UInt64) around scene = (around.freshSeed, scene) :=
  rfl

theorem pool_apply :
    (Machine.pool : Stage (Nat → Schedule)) around scene = (around.pool, scene) :=
  rfl

theorem refusal_apply :
    (Machine.refusal : Stage (Option UInt64 → Option String)) around scene =
      (around.refusal, scene) :=
  rfl

theorem started_apply : (Machine.started : Stage Instant) around scene = (around.started, scene) :=
  rfl

theorem stopped_apply : (Machine.stopped : Stage Instant) around scene = (around.stopped, scene) :=
  rfl

end Stage

/-- On a stage the step does what it does to files alone, and each write is a deed. -/
def Mirrors {β : Type} (staged : ExceptT Error Stage β)
    (filed : ExceptT Error (StateM FileTree) β) : Prop :=
  ∀ around scene, ∃ trees : List FileTree,
    staged around scene = ((filed scene.files).1,
      ⟨(filed scene.files).2, scene.deeds ++ trees.map .write, scene.complaint⟩) ∧
    (trees.map Deed.write).foldl Deed.files scene.files = (filed scene.files).2

namespace Mirrors

variable {β γ : Type}

theorem pure (value : β) : Mirrors (pure value) (pure value) :=
  fun _ scene => ⟨[], by rw [List.map_nil, List.append_nil]; rfl, rfl⟩

theorem bind {staged : ExceptT Error Stage β} {filed : ExceptT Error (StateM FileTree) β}
    {next : β → ExceptT Error Stage γ} {next' : β → ExceptT Error (StateM FileTree) γ}
    (h : Mirrors staged filed) (hnext : ∀ value, Mirrors (next value) (next' value)) :
    Mirrors (staged >>= next) (filed >>= next') := by
  intro around scene
  obtain ⟨trees, hstaged, hlast⟩ := h around scene
  rw [Stage.bind_apply, step_bind_apply, hstaged]
  rcases hfiled : filed scene.files with ⟨e | value, between⟩
  · rw [hfiled] at hlast
    exact ⟨trees, rfl, hlast⟩
  · rw [hfiled] at hlast
    obtain ⟨more, hmore, hlast'⟩ :=
      hnext value around ⟨between, scene.deeds ++ trees.map .write, scene.complaint⟩
    refine ⟨trees ++ more, ?_, ?_⟩
    · rw [List.map_append, ← List.append_assoc]
      exact hmore
    · rw [List.map_append, List.foldl_append, hlast]
      exact hlast'

theorem save (r : Record) (path : String) : Mirrors (r.save path) (r.save path) :=
  fun _ scene => ⟨[(scene.files.write path r.toJson.toText.toUTF8).2], rfl, rfl⟩

theorem appendCsv (r : Record) (path : String) : Mirrors (r.appendCsv path) (r.appendCsv path) :=
  fun _ scene =>
    ⟨[(scene.files.append path fun isEmpty => (r.csvAddition isEmpty).toUTF8).2], rfl, rfl⟩

theorem writeTo (r : Record) (json csv : Option String) :
    Mirrors (r.writeTo json csv) (r.writeTo json csv) := by
  refine .bind ?_ fun _ => ?_
  · cases json with
    | none => exact .pure ()
    | some path => exact .save r path
  · cases csv with
    | none => exact .pure ()
    | some path => exact .appendCsv r path

end Mirrors

theorem Bench.eq_of_create {config : Config} {fresh : UInt64} {pool : Nat → Schedule}
    {refusal : Option UInt64 → Option String} {bench : Bench}
    (h : Bench.create config fresh pool refusal = .ok bench) :
    bench = .ofConfig config fresh pool := by
  unfold Bench.create at h
  split at h
  · cases h
  · cases h
    rfl

/-- Without a file to write there is no record; with one it is written, whatever comes of it. -/
theorem Bench.save_apply (bench : Bench) (summary : String) (around : Surroundings)
    (scene : Scene) :
    bench.save (m := Stage) summary Machine.now Machine.host around scene =
      if bench.config.json.isNone && bench.config.csv.isNone then (.ok none, scene)
      else match bench.result summary around.now around.host with
        | .error e => (.error e, scene)
        | .ok r =>
          ((r.writeTo (m := Stage) bench.config.json bench.config.csv around scene).1.map fun _ =>
              some r,
            (r.writeTo (m := Stage) bench.config.json bench.config.csv around scene).2) := by
  unfold Bench.save
  split
  · rfl
  · have hresult : (ExceptT.mk do return bench.result summary (← Machine.now) (← Machine.host) :
        ExceptT Error Stage Record) around scene =
          (bench.result summary around.now around.host, scene) := rfl
    rw [Stage.bind_apply, hresult]
    cases bench.result summary around.now around.host with
    | error e => rfl
    | ok r =>
      dsimp only
      rw [Stage.bind_apply]
      rcases r.writeTo (m := Stage) bench.config.json bench.config.csv around scene with
        ⟨_ | _, after⟩ <;> rfl

/-- Once there is a result, there is a record of it if there is a file to write it to. -/
theorem Bench.save_of_result {bench : Bench} {summary : String} {around : Surroundings}
    {r : Record} (h : bench.result summary around.now around.host = .ok r) (scene : Scene) :
    bench.save (m := Stage) summary Machine.now Machine.host around scene =
      ((r.writeTo (m := Stage) bench.config.json bench.config.csv around scene).1.map fun _ =>
          if bench.config.json.isNone && bench.config.csv.isNone then none else some r,
        (r.writeTo (m := Stage) bench.config.json bench.config.csv around scene).2) := by
  rw [Bench.save_apply]
  split
  · rename_i hnone
    rw [Bool.and_eq_true, Option.isNone_iff_eq_none, Option.isNone_iff_eq_none] at hnone
    rw [hnone.1, hnone.2]
    rfl
  · rw [h]

end Run

namespace CommandLine

theorem measure_apply (w : Workload) (bench : Bench) (around : Surroundings) (scene : Scene) :
    measure (m := Stage) w bench around scene =
      match w.run (α := Float) around.started around.stopped bench with
      | (.error e, _) => (.error e, scene)
      | (.ok outcome, after) => (.ok (outcome, after), scene) := by
  rw [Workload.run_apply]
  unfold measure
  rcases w.prepare (α := Float) bench with ⟨_ | input, prepared⟩
  · rfl
  dsimp only
  rw [Stage.lift_bind_apply, Stage.started_apply]
  dsimp only
  rcases input.perform (Action.start around.started prepared).2 with ⟨_ | outcome, performed⟩
  · rfl
  dsimp only
  rw [Stage.lift_bind_apply, Stage.stopped_apply]
  dsimp only
  rcases Action.stop around.stopped performed with ⟨_ | _, after⟩ <;> rfl

/-- A run on a stage that has come to an outcome. -/
structure Measurement (around : Surroundings) (name : String) (options : List String)
    (settings : Settings) where
  workload : Workload
  config : Config
  bench : Bench
  outcome : Workload.Outcome Float
  finished : Bench
  planned : plan name options settings = .ok (workload, config)
  created : Bench.create config around.freshSeed around.pool around.refusal = .ok bench
  ran : workload.run (α := Float) around.started around.stopped bench = (.ok outcome, finished)

section runWorkload

variable {around : Surroundings} {name : String} {options : List String} {settings : Settings}

theorem runWorkload_of_plan {w : Workload} {config : Config}
    (hplan : plan name options settings = .ok (w, config)) (files : FileTree) :
    runWorkload around name options settings files =
      match Bench.create config around.freshSeed around.pool around.refusal with
      | .error e => ⟨files, [], .error e⟩
      | .ok bench =>
        match w.run (α := Float) around.started around.stopped bench with
        | (.error e, _) => ⟨files, [], .error e⟩
        | (.ok outcome, finished) => aftermath (conclude finished outcome) around files := by
  unfold runWorkload performWorkload
  rw [hplan]
  dsimp only
  rw [aftermath, Stage.lift_bind_apply, Stage.freshSeed_apply, Stage.lift_bind_apply,
    Stage.pool_apply, Stage.lift_bind_apply, Stage.refusal_apply]
  dsimp only
  cases Bench.create config around.freshSeed around.pool around.refusal with
  | error e => rfl
  | ok bench =>
    dsimp only
    rw [Stage.bind_apply, measure_apply]
    rcases w.run (α := Float) around.started around.stopped bench with ⟨_ | outcome, finished⟩
    · rfl
    · rfl

namespace Measurement

variable (m : Measurement around name options settings)

theorem bench_eq : m.bench = .ofConfig m.config around.freshSeed around.pool :=
  Bench.eq_of_create m.created

theorem config_finished : m.finished.config = m.config := by
  have hconfig :=
    Workload.config_run (α := Float) m.workload around.started around.stopped m.bench
  rw [m.ran, m.bench_eq] at hconfig
  exact hconfig

theorem seed_finished : m.finished.seed = m.config.seed.getD around.freshSeed := by
  have hseed := Workload.seed_run (α := Float) m.workload around.started around.stopped m.bench
  rw [m.ran, m.bench_eq] at hseed
  exact hseed

theorem runWorkload_eq (files : FileTree) :
    runWorkload around name options settings files =
      aftermath (conclude m.finished m.outcome) around files := by
  rw [runWorkload_of_plan m.planned, m.created]
  dsimp only
  rw [m.ran]

end Measurement

/-- A run fails before it has done anything, or it comes to an outcome. -/
theorem runWorkload_cases (around : Surroundings) (name : String) (options : List String)
    (settings : Settings) :
    (∃ e, ∀ files, runWorkload around name options settings files = ⟨files, [], .error e⟩) ∨
      Nonempty (Measurement around name options settings) := by
  cases hplan : plan name options settings with
  | error e =>
    refine .inl ⟨e, fun files => ?_⟩
    unfold runWorkload performWorkload
    rw [hplan]
    rfl
  | ok planned =>
    obtain ⟨w, config⟩ := planned
    cases hcreate : Bench.create config around.freshSeed around.pool around.refusal with
    | error e =>
      refine .inl ⟨e, fun files => ?_⟩
      rw [runWorkload_of_plan hplan, hcreate]
    | ok bench =>
      rcases hrun : w.run (α := Float) around.started around.stopped bench with
        ⟨e | outcome, finished⟩
      · refine .inl ⟨e, fun files => ?_⟩
        rw [runWorkload_of_plan hplan, hcreate]
        dsimp only
        rw [hrun]
      · exact .inr ⟨⟨w, config, bench, outcome, finished, hplan, hcreate, hrun⟩⟩

end runWorkload

theorem conclude_apply {bench : Bench} {line : String} (h : bench.reportLine = .ok line)
    (outcome : Workload.Outcome Float) (around : Surroundings) (scene : Scene) :
    conclude (m := Stage) bench outcome around scene =
      bench.save (m := Stage) outcome.summary Machine.now Machine.host around
        (scene.print (linesText [line])) := by
  unfold conclude
  rw [h]
  rfl

end CommandLine

end DenseBench
