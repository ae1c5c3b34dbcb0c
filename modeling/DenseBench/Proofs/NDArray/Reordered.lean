import DenseBench.Proofs.Engine.Position

/-!
# Counts of reordered shapes

Without a zero, all dimensions stand before the first zero, so a count is found whenever the number
of elements is a word. With one there are no elements, and yet the shape may be refused, but not in
all orders of its dimensions.
-/

namespace DenseBench.NDArray

/-- No zero, or other dimensions that no order of them makes too many. -/
def Reorderable (shape : List Nat) : Prop :=
  0 ∉ shape ∨ (shape.filter (· ≠ 0)).prod < wordLimit

variable {shape other : List Nat}

theorem leadingCount_append {front : List Nat} (h : 0 ∉ front) (back : List Nat) :
    leadingCount (front ++ back) = front.prod * leadingCount back := by
  induction front with
  | nil => exact (Nat.one_mul _).symm
  | cons d front ih =>
    obtain ⟨hd, hfront⟩ := List.ne_and_not_mem_of_not_mem_cons h
    rw [List.cons_append, leadingCount_cons hd.symm, ih hfront, List.prod_cons, Nat.mul_assoc]

theorem leadingCount_of_not_mem (h : 0 ∉ shape) : leadingCount shape = shape.prod := by
  simpa [leadingCount] using leadingCount_append h []

theorem leadingCount_le (shape : List Nat) :
    leadingCount shape ≤ (shape.filter (· ≠ 0)).prod := by
  induction shape with
  | nil => exact Nat.le_refl 1
  | cons d shape ih =>
    obtain rfl | hd := Nat.eq_zero_or_pos d
    · exact Nat.le_trans (leadingCount_pos shape) ih
    · rw [leadingCount_cons hd.ne', List.filter_cons_of_pos (by simpa using hd.ne'),
        List.prod_cons]
      exact Nat.mul_le_mul_left d ih

theorem Reorderable.leadingCount_lt_iff (h : Reorderable shape) (hperm : other.Perm shape) :
    leadingCount other < wordLimit ↔ leadingCount shape < wordLimit := by
  obtain hzero | hfits := h
  · rw [leadingCount_of_not_mem hzero, leadingCount_of_not_mem (mt hperm.mem_iff.mp hzero),
      hperm.prod_eq]
  · have hsame : (other.filter (· ≠ 0)).prod = (shape.filter (· ≠ 0)).prod :=
      (hperm.filter _).prod_eq
    have hother : leadingCount other < wordLimit :=
      ((leadingCount_le other).trans hsame.le).trans_lt hfits
    exact iff_of_true hother ((leadingCount_le shape).trans_lt hfits)

/-- The zeros may stand before all other dimensions or behind them. -/
theorem exists_leadingCount (h : ¬ Reorderable shape) :
    ∃ first last : List Nat, first.Perm shape ∧ last.Perm shape ∧
      leadingCount first < wordLimit ∧ ¬ leadingCount last < wordLimit := by
  obtain ⟨hzero, hmany⟩ := not_or.mp h
  refine ⟨0 :: shape.erase 0, shape.filter (· ≠ 0) ++ shape.filter fun d => !decide (d ≠ 0),
    (List.perm_cons_erase (not_not.mp hzero)).symm, List.filter_append_perm _ _, ?_, ?_⟩
  · rw [leadingCount_zero_cons]
    decide
  · have hnone : 0 ∉ shape.filter (· ≠ 0) := by simp
    rw [leadingCount_append hnone]
    intro hlt
    exact hmany ((Nat.le_mul_of_pos_right _ (leadingCount_pos _)).trans_lt hlt)

theorem forall_perm_iff :
    (∀ other, other.Perm shape →
      (leadingCount other < wordLimit ↔ leadingCount shape < wordLimit)) ↔ Reorderable shape := by
  constructor
  · intro h
    by_contra hnot
    obtain ⟨first, last, hfirst, hlast, hlt, hge⟩ := exists_leadingCount hnot
    exact hge ((h last hlast).mpr ((h first hfirst).mp hlt))
  · intro h other hperm
    exact h.leadingCount_lt_iff hperm

theorem toOption_elementCount_eq_iff (hperm : other.Perm shape) :
    (elementCount other).toOption = (elementCount shape).toOption ↔
      (leadingCount other < wordLimit ↔ leadingCount shape < wordLimit) := by
  rw [elementCount_eq, elementCount_eq, hperm.prod_eq]
  by_cases hother : leadingCount other < wordLimit <;>
    by_cases hshape : leadingCount shape < wordLimit <;>
      simp [hother, hshape, Except.toOption]

theorem exists_ofData_iff {dtype : ElementType} {data : Array Float} :
    (∃ a, ofData shape dtype data = .ok a) ↔
      leadingCount shape < wordLimit ∧ data.size = shape.prod := by
  simp only [ofData_eq_ok_iff, elementCount_eq_ok_iff, exists_and_left, exists_eq, and_true]

theorem exists_random_iff (engine : Engine) {dtype : ElementType} (hfloat : dtype.isFloat = true)
    (source : Random.Source) :
    (∃ r : NDArray Float × Random.Source, engine.random shape dtype source = .ok r) ↔
      leadingCount shape < wordLimit := by
  constructor
  · rintro ⟨⟨a, after⟩, h⟩
    obtain ⟨-, len, -, hcount, -⟩ := Engine.random_eq_ok_iff.mp h
    exact (elementCount_eq_ok_iff.mp hcount).1
  · intro hlt
    exact ⟨_, engine.random_eq_ofFn source hfloat (elementCount_eq_ok_iff.mpr ⟨hlt, rfl⟩)⟩

/-- A count that is found is exact, and without a zero it is found whenever it is a word. With a
zero it depends on the order of the dimensions whether the count is found, and whether an array is
built of the shape, unless the shape is reorderable. -/
structure CountsInOrder (shape : List Nat) : Prop where
  elementCount_iff (count : Nat) : elementCount shape = .ok count ↔
    leadingCount shape < wordLimit ∧ count = shape.prod
  elementCount_error_iff (e : Error) : elementCount shape = .error e ↔
    wordLimit ≤ leadingCount shape ∧ e = .invalidSize (.tooManyElements shape)
  leadingCount_eq : 0 ∉ shape → leadingCount shape = shape.prod
  reordered_iff : (∀ other, other.Perm shape →
    (elementCount other).toOption = (elementCount shape).toOption) ↔ Reorderable shape
  ofData_iff (dtype : ElementType) (data : Array Float) :
    (∃ a, ofData shape dtype data = .ok a) ↔
      leadingCount shape < wordLimit ∧ data.size = shape.prod
  ofData_reordered_iff (dtype : ElementType) {data : Array Float} : data.size = shape.prod →
    ((∀ other, other.Perm shape →
      ((∃ a, ofData other dtype data = .ok a) ↔ ∃ a, ofData shape dtype data = .ok a)) ↔
        Reorderable shape)
  random_iff (engine : Engine) (dtype : ElementType) (source : Random.Source) :
    dtype.isFloat = true →
    ((∃ r : NDArray Float × Random.Source, engine.random shape dtype source = .ok r) ↔
      leadingCount shape < wordLimit)
  random_reordered_iff (engine : Engine) (dtype : ElementType) (source : Random.Source) :
    dtype.isFloat = true →
    ((∀ other, other.Perm shape →
      ((∃ r : NDArray Float × Random.Source, engine.random other dtype source = .ok r) ↔
        ∃ r : NDArray Float × Random.Source, engine.random shape dtype source = .ok r)) ↔
          Reorderable shape)

theorem elementCount_reordered (shape : List Nat) : CountsInOrder shape where
  elementCount_iff _ := elementCount_eq_ok_iff
  elementCount_error_iff _ := elementCount_eq_error_iff
  leadingCount_eq := leadingCount_of_not_mem
  reordered_iff := by
    rw [← forall_perm_iff]
    exact forall₂_congr fun _ hperm => toOption_elementCount_eq_iff hperm
  ofData_iff _ _ := exists_ofData_iff
  ofData_reordered_iff := by
    intro dtype data hsize
    rw [← forall_perm_iff]
    apply forall₂_congr
    intro other hperm
    rw [exists_ofData_iff, exists_ofData_iff, hperm.prod_eq, and_iff_left hsize, and_iff_left hsize]
  random_iff engine _ source hfloat := exists_random_iff engine hfloat source
  random_reordered_iff := by
    intro engine dtype source hfloat
    rw [← forall_perm_iff]
    simp only [exists_random_iff engine hfloat source]

/-- A shape of no elements that one of its orders makes too many. -/
theorem elementCount_reordered_refused :
    elementCount [2 ^ 63, 2, 0] = .error (.invalidSize (.tooManyElements [2 ^ 63, 2, 0])) ∧
      [2 ^ 63, 2, 0].prod = 0 ∧ [0, 2 ^ 63, 2].Perm [2 ^ 63, 2, 0] ∧
        elementCount [0, 2 ^ 63, 2] = .ok 0 := by
  decide +kernel

theorem elementCount_reordered_free :
    (0 ∉ [2, 3] ∧ leadingCount [2, 3] = 6) ∧
      ([2, 0, 3].Perm [3, 2, 0] ∧
        (elementCount [2, 0, 3]).toOption = (elementCount [3, 2, 0]).toOption) ∧
      ((#[] : Array Float).size = [3, 2, 0].prod ∧
        ∃ a, ofData [2, 0, 3] .int64 (#[] : Array Float) = .ok a) ∧
      (ElementType.float32.isFloat = true ∧ ∃ r : NDArray Float × Random.Source,
        Engine.reference.random [2, 0, 3] .float32 (.ofSeed 7) = .ok r) := by
  have hperm : [2, 0, 3].Perm [3, 2, 0] := by decide
  have hfree : Reorderable [3, 2, 0] := Or.inr (by decide)
  have hcounts := elementCount_reordered [3, 2, 0]
  have hbuilt := (hcounts.ofData_iff .int64 #[]).mpr ⟨by decide, rfl⟩
  have hfilled := (hcounts.random_iff .reference .float32 (.ofSeed 7) rfl).mpr (by decide)
  refine ⟨⟨by decide, (elementCount_reordered [2, 3]).leadingCount_eq (by decide)⟩,
    ⟨hperm, hcounts.reordered_iff.mpr hfree _ hperm⟩, ⟨rfl, ?_⟩, ⟨rfl, ?_⟩⟩
  · exact ((hcounts.ofData_reordered_iff .int64 rfl).mpr hfree _ hperm).mpr hbuilt
  · have hreordered := hcounts.random_reordered_iff .reference .float32 (.ofSeed 7) rfl
    exact (hreordered.mpr hfree _ hperm).mpr hfilled

end DenseBench.NDArray
