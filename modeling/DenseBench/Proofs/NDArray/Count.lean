import DenseBench.NDArray
import Mathlib.Algebra.BigOperators.Group.List.Basic
import Mathlib.Algebra.Order.Ring.Nat

/-!
# Numbers of elements

Whether the elements of a shape can be counted is decided by the dimensions before its first zero,
whose product has to be a word. A count that is found is the exact product of the dimensions, and so
is then the product that wraps around. Building an array from data is told by one equivalence.
-/

namespace DenseBench.NDArray

/-- The product of the dimensions before the first zero. -/
def leadingCount (shape : List Nat) : Nat :=
  (shape.takeWhile (· ≠ 0)).prod

theorem leadingCount_zero_cons (shape : List Nat) : leadingCount (0 :: shape) = 1 :=
  rfl

theorem leadingCount_cons {d : Nat} (hd : d ≠ 0) (shape : List Nat) :
    leadingCount (d :: shape) = d * leadingCount shape := by
  rw [leadingCount, List.takeWhile_cons_of_pos (by simpa using hd), List.prod_cons]
  rfl

theorem leadingCount_pos (shape : List Nat) : 0 < leadingCount shape := by
  induction shape with
  | nil => exact Nat.one_pos
  | cons d shape ih =>
    obtain rfl | hd := Nat.eq_zero_or_pos d
    · exact Nat.one_pos
    · rw [leadingCount_cons hd.ne']
      exact Nat.mul_pos hd ih

theorem prod_le_leadingCount (shape : List Nat) : shape.prod ≤ leadingCount shape := by
  induction shape with
  | nil => exact Nat.le_refl 1
  | cons d shape ih =>
    rw [List.prod_cons]
    obtain rfl | hd := Nat.eq_zero_or_pos d
    · rw [Nat.zero_mul]
      exact Nat.zero_le _
    · rw [leadingCount_cons hd.ne']
      exact Nat.mul_le_mul_left d ih

/-- A factor is multiplied in as long as the product is a word, and once it is zero it stays. -/
theorem foldlM_multiply? (shape : List Nat) {start : Nat} (hstart : start < wordLimit) :
    shape.foldlM multiply? start =
      if start * leadingCount shape < wordLimit then some (start * shape.prod) else none := by
  induction shape generalizing start with
  | nil =>
    have hone : start * leadingCount [] = start := Nat.mul_one start
    rw [hone, if_pos hstart, List.prod_nil, Nat.mul_one]
    rfl
  | cons d shape ih =>
    rw [List.foldlM_cons]
    obtain rfl | hd := Nat.eq_zero_or_pos d
    · have hzero : multiply? start 0 = some 0 := by simp [multiply?, wordLimit]
      rw [hzero, leadingCount_zero_cons, Nat.mul_one, if_pos hstart, List.prod_cons]
      simpa [wordLimit] using ih (by decide : 0 < wordLimit)
    · rw [leadingCount_cons hd.ne', List.prod_cons, ← Nat.mul_assoc, ← Nat.mul_assoc]
      by_cases hnext : start * d < wordLimit
      · rw [multiply?, if_pos hnext]
        exact ih hnext
      · have hgrows : start * d ≤ start * d * leadingCount shape :=
          Nat.le_mul_of_pos_right _ (leadingCount_pos shape)
        rw [multiply?, if_neg hnext, if_neg fun h => hnext (hgrows.trans_lt h)]
        rfl

theorem foldl_wrapped (shape : List Nat) {start : Nat} (hstart : start < wordLimit) :
    shape.foldl (fun count d => count * d % wordLimit) start = start * shape.prod % wordLimit := by
  induction shape generalizing start with
  | nil => rw [List.foldl_nil, List.prod_nil, Nat.mul_one, Nat.mod_eq_of_lt hstart]
  | cons d shape ih =>
    rw [List.foldl_cons, ih (Nat.mod_lt _ (by decide)), List.prod_cons, Nat.mod_mul_mod,
      Nat.mul_assoc]

theorem wrappedCount_eq (shape : List Nat) : wrappedCount shape = shape.prod % wordLimit := by
  rw [wrappedCount, foldl_wrapped shape (by decide), Nat.one_mul]

theorem elementCount_eq (shape : List Nat) :
    elementCount shape =
      if leadingCount shape < wordLimit then .ok shape.prod
      else .error (.invalidSize (.tooManyElements shape)) := by
  unfold elementCount
  rw [foldlM_multiply? shape (by decide), Nat.one_mul, Nat.one_mul]
  split <;> simp_all

theorem elementCount_eq_error_iff {shape : List Nat} {e : Error} :
    elementCount shape = .error e ↔
      wordLimit ≤ leadingCount shape ∧ e = .invalidSize (.tooManyElements shape) := by
  rw [elementCount_eq]
  split <;> simp_all [eq_comm]

theorem elementCount_eq_ok_iff {shape : List Nat} {count : Nat} :
    elementCount shape = .ok count ↔ leadingCount shape < wordLimit ∧ count = shape.prod := by
  rw [elementCount_eq]
  split <;> simp_all [eq_comm]

theorem elementCount_eq_ok_iff_foldlM {shape : List Nat} {count : Nat} :
    elementCount shape = .ok count ↔ shape.foldlM multiply? 1 = some count := by
  unfold elementCount
  split <;> simp_all

theorem eq_prod_of_elementCount {shape : List Nat} {count : Nat}
    (h : elementCount shape = .ok count) : count = shape.prod :=
  (elementCount_eq_ok_iff.mp h).2

theorem lt_wordLimit_of_elementCount {shape : List Nat} {count : Nat}
    (h : elementCount shape = .ok count) : count < wordLimit := by
  obtain ⟨hlt, rfl⟩ := elementCount_eq_ok_iff.mp h
  exact (prod_le_leadingCount shape).trans_lt hlt

theorem wrappedCount_of_elementCount {shape : List Nat} {count : Nat}
    (h : elementCount shape = .ok count) : wrappedCount shape = count := by
  rw [wrappedCount_eq, ← eq_prod_of_elementCount h]
  exact Nat.mod_eq_of_lt (lt_wordLimit_of_elementCount h)

theorem elementCount_square {n : Nat} (h : n * n < wordLimit) :
    elementCount [n, n] = .ok (n * n) := by
  have hn : n < wordLimit := by
    rcases Nat.eq_zero_or_pos n with rfl | hpos
    · decide
    · exact (Nat.le_mul_of_pos_left n hpos).trans_lt h
  rw [elementCount_eq_ok_iff_foldlM]
  simp [multiply?, hn, h]

variable {α : Type} [Scalar α]

theorem ofData_eq_ok_iff {shape : List Nat} {dtype : ElementType} {data : Array α}
    {a : NDArray α} :
    ofData shape dtype data = .ok a ↔
      elementCount shape = .ok data.size ∧ a = ⟨shape, dtype, data.map (Scalar.coerce dtype)⟩ := by
  unfold ofData
  cases hcount : elementCount shape with
  | error e => simp
  | ok expected =>
    by_cases hsize : expected = data.size
    · have hmap : data.map (Scalar.coerce .float64) = data := Array.map_id' data
      simp only [if_pos hsize]
      cases dtype <;> simp [hsize, hmap, eq_comm]
    · simp [hsize]

end DenseBench.NDArray
