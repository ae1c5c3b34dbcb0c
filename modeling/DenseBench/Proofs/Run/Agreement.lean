import DenseBench.Proofs.Engine.Elementwise
import DenseBench.Proofs.Reduction
import DenseBench.Proofs.Run.Frame

/-!
# Agreement of runs

Two benches are alike for a workload if nothing that the workload does can tell them apart: they
have equal sizes, types and sources, and engines that fill and count alike at every call. Each
action of a run is shown to give equal results on benches that are alike, and to leave them alike.
-/

namespace DenseBench

namespace Workload

/-- The number of elements of every random fill of a run. -/
def fillLength : Workload → List UInt64 → Nat
  | lu, [n] => n.toNat * n.toNat
  | monteCarlo, [points, _] => points.toNat
  | _, _ => 0

/-- The number of truth values that every reduction of a run adds up. -/
def countLength : Workload → List UInt64 → Nat
  | monteCarlo, [points, _] => points.toNat
  | _, _ => 0

end Workload

/-- Engines that fill so many elements alike and count so many truth values alike. -/
structure Engine.Interchangeable (α : Type) [Scalar α] (filled counted : Nat)
    (engine other : Engine) : Prop where
  fill (dtype : ElementType) (source : Random.Source) :
    (engine.fill dtype filled source : Array α × Random.Source) = other.fill dtype filled source
  count {a : NDArray α} {flags : List Bool} : a.data.toList = flags.map Scalar.ofBool →
    flags.length = counted → engine.reduce .add a = other.reduce .add a

namespace Engine.Interchangeable

variable {α : Type} [Scalar α] {filled counted : Nat}

theorem refl (engine : Engine) : Interchangeable α filled counted engine engine :=
  ⟨fun _ _ => rfl, fun _ _ => rfl⟩

variable [CountsExactly α]

theorem of_fill {engine other : Engine} (hcounted : counted ≤ 2 ^ 53)
    (hfill : ∀ dtype source, (engine.fill dtype filled source : Array α × Random.Source) =
      other.fill dtype filled source) :
    Interchangeable α filled counted engine other where
  fill := hfill
  count := by
    intro a flags hdata hlength
    rw [reduce_add_ofBool engine hdata (hlength ▸ hcounted),
      reduce_add_ofBool other hdata (hlength ▸ hcounted)]

theorem parallel (s t : Schedule) (hcounted : counted ≤ 2 ^ 53) :
    Interchangeable α filled counted (.parallel s) (.parallel t) :=
  of_fill hcounted fun dtype source => fill_parallel_eq s t dtype filled source

theorem parallel_reference (s : Schedule) (hcounted : counted ≤ 2 ^ 53) (hpos : 0 < filled)
    (hle : filled ≤ chunkLength) :
    Interchangeable α filled counted (.parallel s) .reference :=
  of_fill hcounted fun dtype source => fill_parallel_eq_reference s dtype source hpos hle

end Engine.Interchangeable

namespace Run

/-- Nothing that the workload does on these sizes can tell the benches apart. -/
structure Bench.Alike (α : Type) [Scalar α] (w : Workload) (sizes : List UInt64)
    (b c : Bench) : Prop where
  sizes_left : b.config.sizes = sizes
  sizes_right : c.config.sizes = sizes
  dtype : b.config.dtype = c.config.dtype
  source : b.source = c.source
  calls : b.calls = c.calls
  engines (calls : Nat) : Engine.Interchangeable α (w.fillLength sizes) (w.countLength sizes)
    { b with calls := calls }.engine { c with calls := calls }.engine
  started : b.watch.started.isSome = c.watch.started.isSome

theorem Bench.Alike.engine {α : Type} [Scalar α] {w : Workload} {sizes : List UInt64}
    {b c : Bench} (h : b.Alike α w sizes c) :
    Engine.Interchangeable α (w.fillLength sizes) (w.countLength sizes) b.engine c.engine := by
  have hc : { c with calls := b.calls } = c := by rw [h.calls]
  have hengines := h.engines b.calls
  rwa [hc] at hengines

/-- The action has equal results on benches that are alike, leaves them alike, and its values
satisfy the condition. -/
def Action.Agrees (α : Type) [Scalar α] (w : Workload) (sizes : List UInt64) {β : Type}
    (action : Action β) (post : β → Prop) : Prop :=
  ∀ b c : Bench, b.Alike α w sizes c →
    (action b).1 = (action c).1 ∧ (action b).2.Alike α w sizes (action c).2 ∧
      ∀ value, (action b).1 = .ok value → post value

namespace Action

variable {β γ : Type}

namespace Agrees

variable {α : Type} [Scalar α] {w : Workload} {sizes : List UInt64}

theorem pure {post : β → Prop} {value : β} (h : post value) :
    Agrees α w sizes (pure value) post := by
  intro b c halike
  refine ⟨rfl, halike, ?_⟩
  rintro _ ⟨⟩
  exact h

theorem fail (e : Error) {post : β → Prop} : Agrees α w sizes (Action.fail e) post :=
  fun _ _ halike => ⟨rfl, halike, fun _ hok => nomatch hok⟩

theorem bind {action : Action β} {next : β → Action γ} {mid : β → Prop} {post : γ → Prop}
    (haction : Agrees α w sizes action mid)
    (hnext : ∀ value, mid value → Agrees α w sizes (next value) post) :
    Agrees α w sizes (action >>= next) post := by
  intro b c halike
  obtain ⟨heq, hafter, hmid⟩ := haction b c halike
  rw [bind_apply, bind_apply]
  rcases hb : action b with ⟨result, b'⟩
  rcases hc : action c with ⟨result', c'⟩
  rw [hb, hc] at heq hafter
  rw [hb] at hmid
  obtain rfl : result = result' := heq
  cases result with
  | error e => exact ⟨rfl, hafter, fun _ hok => nomatch hok⟩
  | ok value => exact hnext value (hmid value rfl) b' c' hafter

/-- What follows the configuration may look at its sizes only. -/
theorem bind_config {next : Config → Action γ} {post : γ → Prop}
    (hsizes : ∀ config config' : Config, config.sizes = config'.sizes → next config = next config')
    (hnext : ∀ config : Config, config.sizes = sizes → Agrees α w sizes (next config) post) :
    Agrees α w sizes (Action.config >>= next) post := by
  intro b c halike
  have heq : next b.config = next c.config :=
    hsizes _ _ (halike.sizes_left.trans halike.sizes_right.symm)
  have hb : (Action.config >>= next) b = next b.config b := rfl
  have hc : (Action.config >>= next) c = next b.config c := by rw [heq]; rfl
  rw [hb, hc]
  exact hnext b.config halike.sizes_left b c halike

theorem call {operation : Engine → Except Error β} {post : β → Prop}
    (hoperation : ∀ engine other : Engine,
      engine.Interchangeable α (w.fillLength sizes) (w.countLength sizes) other →
        operation engine = operation other)
    (hpost : ∀ engine value, operation engine = .ok value → post value) :
    Agrees α w sizes (Action.call operation) post := by
  intro b c halike
  refine ⟨hoperation _ _ halike.engine, ?_, fun value hok => hpost _ value hok⟩
  exact { halike with calls := congrArg (· + 1) halike.calls }

theorem random {shape : List Nat}
    (hcount : NDArray.elementCount shape = .ok (w.fillLength sizes)) :
    Agrees α w sizes (Action.random shape) fun a : NDArray α => a.shape = shape := by
  intro b c halike
  have heq : (b.engine.random shape b.config.dtype b.source :
      Except Error (NDArray α × Random.Source)) =
        c.engine.random shape c.config.dtype c.source := by
    rw [← halike.dtype, ← halike.source]
    exact Engine.random_congr hcount (halike.engine.fill _ _)
  unfold Action.random
  rw [← heq]
  cases hrandom : (b.engine.random shape b.config.dtype b.source :
      Except Error (NDArray α × Random.Source)) with
  | error e =>
    refine ⟨rfl, ?_, fun _ hok => nomatch hok⟩
    exact { halike with calls := congrArg (· + 1) halike.calls }
  | ok drawn =>
    obtain ⟨a, source⟩ := drawn
    refine ⟨rfl, ?_, ?_⟩
    · exact { halike with source := rfl, calls := congrArg (· + 1) halike.calls }
    · rintro _ ⟨⟩
      obtain ⟨-, _, _, -, -, hdata⟩ := Engine.random_eq_ok_iff.mp hrandom
      rw [(NDArray.ofData_eq_ok_iff.mp hdata).2]

end Agrees

end Action

namespace Bench.Alike

variable {α : Type} [Scalar α] {w : Workload} {sizes : List UInt64} {b c : Bench}

theorem start (halike : b.Alike α w sizes c) (now now' : Instant) :
    (Action.start now b).2.Alike α w sizes (Action.start now' c).2 :=
  { halike with started := rfl }

/-- Stopping tells times that may differ, but it fails on both benches or on neither. -/
theorem stop {β : Type} (halike : b.Alike α w sizes c) (now now' : Instant) (value : β) :
    ((Action.stop now b).1.map fun _ => value) = ((Action.stop now' c).1.map fun _ => value) ∧
      (Action.stop now b).2.Alike α w sizes (Action.stop now' c).2 := by
  have hstarted := halike.started
  unfold Action.stop Stopwatch.stop
  cases hb : b.watch.started with
  | none =>
    rw [hb, Option.isSome_none, eq_comm, Option.isSome_eq_false_iff, Option.isNone_iff_eq_none]
      at hstarted
    rw [hstarted]
    exact ⟨rfl, halike⟩
  | some began =>
    rw [hb, Option.isSome_some, eq_comm, Option.isSome_iff_exists] at hstarted
    obtain ⟨began', hc⟩ := hstarted
    rw [hc]
    exact ⟨rfl, { halike with started := rfl }⟩

end Bench.Alike

end Run

end DenseBench
