import DenseBench.Proofs.NDArray.Count
import DenseBench.Proofs.Schedule

/-!
# Random fills

Every pool fills an array alike, since each chunk has a stream of its own. A fill of one chunk takes
one double word and one stream, as a fill on the reference engine does.
-/

namespace DenseBench.Engine

open NDArray

variable {α : Type} [Scalar α]

theorem fill_parallel_eq (s t : Schedule) (dtype : ElementType) (len : Nat)
    (source : Random.Source) :
    ((parallel s).fill dtype len source : Array α × Random.Source) =
      (parallel t).fill dtype len source := by
  simp only [fill, VisitOrder.tabulate_eq_ofFn]

theorem chunkCount_eq_one {len : Nat} (hpos : 0 < len) (hle : len ≤ chunkLength) :
    chunkCount len = 1 := by
  unfold chunkCount
  unfold chunkLength at hle ⊢
  omega

theorem fill_parallel_eq_reference (s : Schedule) (dtype : ElementType) {len : Nat}
    (source : Random.Source) (hpos : 0 < len) (hle : len ≤ chunkLength) :
    ((parallel s).fill dtype len source : Array α × Random.Source) =
      reference.fill dtype len source := by
  have hcount := chunkCount_eq_one hpos hle
  have hone : ∀ value : Fin 1 → Array α, (Vector.ofFn value).toArray.flatten = value 0 := by
    intro value
    rw [Vector.toArray_ofFn, Array.ofFn_succ]
    simp
  simp only [fill, VisitOrder.tabulate_eq_ofFn]
  generalize chunkCount len = count at hcount ⊢
  subst hcount
  rw [hone]
  simp [Random.Source.take, Random.Source.next, Random.Source.peek, Nat.min_eq_right hle]

theorem random_eq_ok_iff {engine : Engine} {shape : List Nat} {dtype : ElementType}
    {source : Random.Source} {a : NDArray α} {after : Random.Source} :
    engine.random shape dtype source = .ok (a, after) ↔
      dtype.isFloat = true ∧ ∃ (len : Nat) (data : Array α), elementCount shape = .ok len ∧
        engine.fill dtype len source = (data, after) ∧ ofData shape dtype data = .ok a := by
  unfold random
  by_cases hfloat : dtype.isFloat = true
  · rw [if_pos hfloat]
    cases hcount : elementCount shape with
    | error e => simp
    | ok len =>
      obtain ⟨data, next, hfill⟩ : ∃ (data : Array α) (next : Random.Source),
          engine.fill dtype len source = (data, next) := ⟨_, _, rfl⟩
      cases hdata : ofData shape dtype data with
      | error e => simp [hfill, hdata, Except.map]
      | ok b => simp [hfill, hdata, hfloat, Except.map, and_comm]
  · simp [hfloat]

/-- Engines that fill alike return like arrays and leave like sources. -/
theorem random_congr {engine other : Engine} {shape : List Nat} {dtype : ElementType}
    {source : Random.Source} {len : Nat} (hcount : elementCount shape = .ok len)
    (hfill : (engine.fill dtype len source : Array α × Random.Source) =
      other.fill dtype len source) :
    (engine.random shape dtype source : Except Error (NDArray α × Random.Source)) =
      other.random shape dtype source := by
  simp only [random, hcount, hfill]

end DenseBench.Engine
