import DenseBench.Proofs.Double.Sum
import DenseBench.Proofs.Run.Options
import DenseBench.Proofs.Run.Repeatable

/-!
# Seeded runs

A seed decides the result of a run on a pool, however the pool schedules its calls. Fills of at
most one chunk make the reference engine return that result too.
-/

namespace DenseBench

open Run

/-- Benches of configurations that differ only in what a run does not look at. -/
theorem Run.Bench.alike_ofConfig {α : Type} [Scalar α] {w : Workload} {sizes : List UInt64}
    {config config' : Config} {fresh fresh' : UInt64} {pool pool' : Nat → Schedule}
    (hsizes : config.sizes = sizes) (hsizes' : config'.sizes = sizes)
    (hdtype : config.dtype = config'.dtype)
    (hseed : config.seed.getD fresh = config'.seed.getD fresh')
    (hengines : ∀ calls, Engine.Interchangeable α (w.fillLength sizes) (w.countLength sizes)
      { ofConfig config fresh pool with calls := calls }.engine
      { ofConfig config' fresh' pool' with calls := calls }.engine) :
    (ofConfig config fresh pool).Alike α w sizes (ofConfig config' fresh' pool') where
  sizes_left := hsizes
  sizes_right := hsizes'
  dtype := hdtype
  source := congrArg Random.Source.ofSeed hseed
  calls := rfl
  engines := hengines
  started := rfl

namespace Workload

variable {α : Type} [Scalar α]

/-- Where sizes are positive and nothing would be filled, their number is wrong. -/
theorem prepare_of_fillLength_eq_zero {w : Workload} {bench : Bench}
    (hpos : ∀ n ∈ bench.config.sizes, n ≠ 0) (hfill : w.fillLength bench.config.sizes = 0) :
    w.prepare (α := α) bench =
      (.error (.invalidSize (.wrongCount w.name w.sizeUsage bench.config.sizes.length)),
        bench) := by
  unfold prepare
  rw [Action.bind_apply]
  simp only [Action.config]
  cases w with
  | lu =>
    rcases hsizes : bench.config.sizes with _ | ⟨n, _ | ⟨m, rest⟩⟩
    · rfl
    · rw [hsizes] at hpos hfill
      have hn : n.toNat = 0 := mul_self_eq_zero.mp hfill
      exact absurd (UInt64.toNat_inj.mp (by simpa using hn)) (hpos n List.mem_cons_self)
    · rfl
  | monteCarlo =>
    rcases hsizes : bench.config.sizes with _ | ⟨n, _ | ⟨m, _ | ⟨k, rest⟩⟩⟩
    · rfl
    · rfl
    · rw [hsizes] at hpos hfill
      have hn : n.toNat = 0 := hfill
      exact absurd (UInt64.toNat_inj.mp (by simpa using hn)) (hpos n List.mem_cons_self)
    · rfl

variable [CountsExactly α]

theorem run_eq_of_seed (w : Workload) {config : Config} {seed : UInt64}
    (hseed : config.seed = some seed) (hconfig : config.checked = .ok config)
    (hcount : w.countLength config.sizes ≤ 2 ^ 53) :
    (∀ (threads threads' : Option UInt64) (fresh fresh' : UInt64) (pool pool' : Nat → Schedule)
        (started stopped started' stopped' : Instant),
      let first := w.run (α := α) started stopped
        (.ofConfig { config with engine := .parallel, threads := threads } fresh pool)
      let second := w.run (α := α) started' stopped'
        (.ofConfig { config with engine := .parallel, threads := threads' } fresh' pool')
      first.1 = second.1 ∧ first.2.source = second.2.source) ∧
    (w.fillLength config.sizes ≤ Engine.chunkLength →
      ∀ (threads threads' : Option UInt64) (fresh fresh' : UInt64) (pool pool' : Nat → Schedule)
        (started stopped started' stopped' : Instant),
      let pooled := w.run (α := α) started stopped
        (.ofConfig { config with engine := .parallel, threads := threads } fresh pool)
      let reference := w.run (α := α) started' stopped'
        (.ofConfig { config with engine := .reference, threads := threads' } fresh' pool')
      pooled.1 = reference.1 ∧ pooled.2.source = reference.2.source) := by
  constructor
  · intro threads threads' fresh fresh' pool pool' started stopped started' stopped'
    have halike : (Bench.ofConfig { config with engine := .parallel, threads := threads } fresh
        pool).Alike α w config.sizes
          (.ofConfig { config with engine := .parallel, threads := threads' } fresh' pool') :=
      Bench.alike_ofConfig rfl rfl rfl (by simp [hseed]) fun calls => .parallel _ _ hcount
    obtain ⟨hresult, hafter⟩ := run_alike halike started stopped started' stopped'
    exact ⟨hresult, hafter.source⟩
  · intro hfill threads threads' fresh fresh' pool pool' started stopped started' stopped'
    rcases Nat.eq_zero_or_pos (w.fillLength config.sizes) with hzero | hpos
    · have hsizes := (Config.checked_eq_ok_iff.mp hconfig).2.2
      dsimp only
      rw [run_apply, run_apply, prepare_of_fillLength_eq_zero hsizes hzero,
        prepare_of_fillLength_eq_zero hsizes hzero]
      simp [Bench.ofConfig, hseed]
    · have halike : (Bench.ofConfig { config with engine := .parallel, threads := threads } fresh
          pool).Alike α w config.sizes
            (.ofConfig { config with engine := .reference, threads := threads' } fresh' pool') :=
        Bench.alike_ofConfig rfl rfl rfl (by simp [hseed]) fun calls =>
          .parallel_reference _ hcount hpos hfill
      obtain ⟨hresult, hafter⟩ := run_alike halike started stopped started' stopped'
      exact ⟨hresult, hafter.source⟩

/-- Two rounds of a hundred points. -/
def fewPoints : Config where
  script := "mc"
  sizes := [100, 2]
  dtype := .float32
  engine := .parallel
  seed := some 7

theorem run_eq_of_seed_fewPoints :
    fewPoints.seed = some 7 ∧ fewPoints.checked = .ok fewPoints ∧
      monteCarlo.countLength fewPoints.sizes ≤ 2 ^ 53 ∧
        ∀ pool pool' : Nat → Schedule,
          (monteCarlo.run (α := Float) 0 1 (.ofConfig fewPoints 0 pool)).1 =
            (monteCarlo.run (α := Float) 2 5
              (.ofConfig { fewPoints with engine := .reference } 0 pool')).1 := by
  have hchecked : fewPoints.checked = .ok fewPoints := by rfl
  have hcount : monteCarlo.countLength fewPoints.sizes ≤ 2 ^ 53 := by decide
  have hfill : monteCarlo.fillLength fewPoints.sizes ≤ Engine.chunkLength := by decide
  refine ⟨rfl, hchecked, hcount, fun pool pool' => ?_⟩
  exact ((run_eq_of_seed monteCarlo rfl hchecked hcount).2 hfill none none 0 0 pool pool' 0 1 2 5).1

end Workload

end DenseBench
