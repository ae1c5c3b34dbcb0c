import DenseBench.Proofs.Elimination.Minors

/-!
# Factors from their product

A matrix has at most one pair of a unit lower and an upper triangular factor, as long as no diagonal
entry of the upper one is zero, the last one left out of account. Its leading minors are then not
zero either, so that elimination finds the pair.
-/

namespace DenseBench.Elimination

open NDArray Matrix

variable {n : Nat}

section Field

variable {K : Type} [Field K] {L L' U U' : Matrix (Fin n) (Fin n) K}

/-- In the first rows of a lower triangular matrix only the first columns count. -/
theorem leading_mul (hL : L.IsLowerTriangular) {m : Nat} (hm : m ≤ n) :
    leading (L * U) m hm = leading L m hm * leading U m hm := by
  ext i j
  simp only [leading, submatrix_apply, mul_apply]
  symm
  apply Fintype.sum_of_injective (Fin.castLE hm) (Fin.castLE_injective hm)
  · intro p hp
    have hlt : Fin.castLE hm i < p := by
      by_contra hle
      exact hp ⟨⟨p, Nat.lt_of_le_of_lt (not_lt.mp hle) i.isLt⟩, rfl⟩
    have hzero : L (Fin.castLE hm i) p = 0 := hL hlt
    rw [hzero, zero_mul]
  · intro p
    rfl

theorem det_leading_mul (hL : L.IsLowerTriangular) (hone : ∀ i, L i i = 1)
    (hU : U.IsUpperTriangular) {m : Nat} (hm : m ≤ n) :
    (leading (L * U) m hm).det = ∏ i : Fin m, U (Fin.castLE hm i) (Fin.castLE hm i) := by
  have hlower : (leading L m hm).IsLowerTriangular := fun i j hij => hL hij
  have hupper : (leading U m hm).IsUpperTriangular := fun i j hij => hU hij
  have hdiagonal (i : Fin m) : leading L m hm i i = 1 := hone _
  rw [leading_mul hL, det_mul, det_of_isLowerTriangular _ hlower, det_of_isUpperTriangular hupper,
    Finset.prod_congr rfl fun i _ => hdiagonal i, Finset.prod_const_one, one_mul]
  rfl

theorem leadingRegular_mul (hL : L.IsLowerTriangular) (hone : ∀ i, L i i = 1)
    (hU : U.IsUpperTriangular) (hpivots : ∀ i : Fin n, i.val + 1 < n → U i i ≠ 0) :
    LeadingRegular (L * U) := by
  intro m _ hm
  rw [det_leading_mul hL hone hU]
  refine Finset.prod_ne_zero_iff.mpr fun i _ => hpivots _ ?_
  exact Nat.lt_of_le_of_lt i.isLt hm

/-- Where two sums of products agree and all their terms but one do, that one does too. -/
theorem term_eq_of_mul_eq (h : L' * U' = L * U) {i j k : Fin n}
    (hothers : ∀ p, p ≠ k → L' i p * U' p j = L i p * U p j) :
    L' i k * U' k j = L i k * U k j := by
  have hsum : ∑ p, L' i p * U' p j = ∑ p, L i p * U p j := by
    rw [← mul_apply, ← mul_apply, h]
  rw [← Finset.add_sum_erase _ _ (Finset.mem_univ k),
    ← Finset.add_sum_erase _ (fun p => L i p * U p j) (Finset.mem_univ k),
    Finset.sum_congr rfl fun p hp => hothers p (Finset.ne_of_mem_erase hp)] at hsum
  exact add_right_cancel hsum

theorem step_eq_of_mul_eq (hL : L.IsLowerTriangular) (hone : ∀ i, L i i = 1)
    (hU : U.IsUpperTriangular) (hpivots : ∀ i : Fin n, i.val + 1 < n → U i i ≠ 0)
    (hL' : L'.IsLowerTriangular) (hone' : ∀ i, L' i i = 1) (hU' : U'.IsUpperTriangular)
    (h : L' * U' = L * U) (k : Fin n) : (∀ j, U' k j = U k j) ∧ ∀ i, L' i k = L i k := by
  -- The rows of `U` and the columns of `L` before step `k` agree, and the terms behind it vanish,
  -- so that one term of each sum is left.
  induction k using WellFoundedLT.induction with
  | ind k ih =>
    have hearlier (i j p : Fin n) (hp : p < k) : L' i p * U' p j = L i p * U p j := by
      rw [(ih p hp).1 j, (ih p hp).2 i]
    have hrow (j : Fin n) : U' k j = U k j := by
      have hterm : L' k k * U' k j = L k k * U k j := by
        apply term_eq_of_mul_eq h
        intro p hne
        rcases lt_or_gt_of_ne hne with hlt | hgt
        · exact hearlier k j p hlt
        · have hzero : L k p = 0 := hL hgt
          have hzero' : L' k p = 0 := hL' hgt
          rw [hzero, hzero', zero_mul, zero_mul]
      rwa [hone, hone', one_mul, one_mul] at hterm
    refine ⟨hrow, ?_⟩
    intro i
    rcases lt_trichotomy i k with hlt | rfl | hgt
    · exact (hL' hlt).trans (hL hlt).symm
    · rw [hone, hone']
    · have hterm : L' i k * U' k k = L i k * U k k := by
        apply term_eq_of_mul_eq h
        intro p hne
        rcases lt_or_gt_of_ne hne with hbefore | hbehind
        · exact hearlier i k p hbefore
        · have hzero : U p k = 0 := hU hbehind
          have hzero' : U' p k = 0 := hU' hbehind
          rw [hzero, hzero', mul_zero, mul_zero]
      rw [hrow k] at hterm
      have hpivot : U k k ≠ 0 := hpivots k (Nat.lt_of_le_of_lt hgt i.isLt)
      exact mul_right_cancel₀ hpivot hterm

theorem eq_of_mul_eq (hL : L.IsLowerTriangular) (hone : ∀ i, L i i = 1)
    (hU : U.IsUpperTriangular) (hpivots : ∀ i : Fin n, i.val + 1 < n → U i i ≠ 0)
    (hL' : L'.IsLowerTriangular) (hone' : ∀ i, L' i i = 1) (hU' : U'.IsUpperTriangular)
    (h : L' * U' = L * U) : L' = L ∧ U' = U := by
  have hstep := step_eq_of_mul_eq hL hone hU hpivots hL' hone' hU' h
  constructor
  · ext i k
    exact (hstep k).2 i
  · ext k j
    exact (hstep k).1 j

end Field

section Packed

variable {K : Type} [Field K] [Arith K] [Exact K] (packed : Vector (Vector K n) n)

def lowerFactor : Matrix (Fin n) (Fin n) K :=
  .of (lowerEntry packed)

def upperFactor : Matrix (Fin n) (Fin n) K :=
  .of (upperEntry packed)

theorem isLowerTriangular_lowerFactor : (lowerFactor packed).IsLowerTriangular := by
  intro i j hij
  have hlt : i < j := hij
  simp [lowerFactor, lowerEntry, hlt.not_gt, hlt.ne', Exact.zero_eq]

theorem lowerFactor_self (i : Fin n) : lowerFactor packed i i = 1 := by
  simp [lowerFactor, lowerEntry, Exact.one_eq]

theorem isUpperTriangular_upperFactor : (upperFactor packed).IsUpperTriangular := by
  intro i j hji
  have hlt : j < i := hji
  simp [upperFactor, upperEntry, hlt, Exact.zero_eq]

variable {packed}

theorem Packs.lowerFactor_mul_upperFactor {a : NDArray K} (hshape : a.shape = [n, n])
    (hfits : n * n < wordLimit) (h : Packs 0 (rowsOf n a.data) packed.toList) :
    lowerFactor packed * upperFactor packed = a.matrix n := by
  ext i j
  have hlength : (rowsOf n a.data).length = n := by simp [rowsOf]
  have hi : i.val < (rowsOf n a.data).length := hlength.symm ▸ i.isLt
  have hsum := h.cell_eq_sum hi (Nat.zero_le j) j.isLt
  rw [hlength, cell_rowsOf, ← matrix_apply hshape hfits, Finset.sum_range] at hsum
  rw [mul_apply, hsum]
  refine Finset.sum_congr rfl fun m _ => ?_
  rw [lowerPart_toList, upperPart_toList]
  rfl

end Packed

variable {α : Type} [Scalar α]

/-- The array of a matrix, if so many elements can be counted. -/
def ofMatrix (dtype : ElementType) (A : Matrix (Fin n) (Fin n) α) : Except Error (NDArray α) :=
  ofData [n, n] dtype (bufferOf n fun i j => A i j)

theorem ofMatrix_eq_ok_iff {dtype : ElementType} {A : Matrix (Fin n) (Fin n) α} {a : NDArray α} :
    ofMatrix dtype A = .ok a ↔ n * n < wordLimit ∧ a = factor dtype fun i j => A i j := by
  rw [ofMatrix, ofData_eq_ok_iff, size_bufferOf]
  constructor
  · rintro ⟨hcount, ha⟩
    exact ⟨lt_wordLimit_of_elementCount hcount, ha⟩
  · rintro ⟨hfits, ha⟩
    exact ⟨elementCount_square hfits, ha⟩

end DenseBench.Elimination

namespace DenseBench.Engine

open NDArray Elimination

/-- With exact arithmetic, factoring the product of a unit lower and an upper triangular matrix
gives both back, if no diagonal entry of the upper one is zero but perhaps the last; and the product
has no other factors of this form. -/
theorem lu_ofMatrix_mul {K : Type} [Field K] [Scalar K] [Exact K] (engine : Engine) {n : Nat}
    {L U : Matrix (Fin n) (Fin n) K} (hL : L.IsLowerTriangular) (hone : ∀ i, L i i = 1)
    (hU : U.IsUpperTriangular) (hpivots : ∀ i : Fin n, i.val + 1 < n → U i i ≠ 0) {a : NDArray K}
    (ha : ofMatrix .float64 (L * U) = .ok a) :
    (∃ l u, ofMatrix .float64 L = .ok l ∧ ofMatrix .float64 U = .ok u ∧
      engine.lu a = .ok (l, u)) ∧
    ∀ L' U' : Matrix (Fin n) (Fin n) K, L'.IsLowerTriangular → (∀ i, L' i i = 1) →
      U'.IsUpperTriangular → L' * U' = L * U → L' = L ∧ U' = U := by
  have hunique (L' U' : Matrix (Fin n) (Fin n) K) (hL' : L'.IsLowerTriangular)
      (hone' : ∀ i, L' i i = 1) (hU' : U'.IsUpperTriangular) (h : L' * U' = L * U) :
      L' = L ∧ U' = U :=
    eq_of_mul_eq hL hone hU hpivots hL' hone' hU' h
  refine ⟨?_, hunique⟩
  obtain ⟨hfits, rfl⟩ := ofMatrix_eq_ok_iff.mp ha
  have hmatrix : (factor .float64 fun i j => (L * U) i j).matrix n = L * U := by
    ext i j
    exact matrix_factor hfits .float64 _ i j
  rcases lu_square engine (a := factor .float64 fun i j => (L * U) i j) rfl hfits with
    ⟨packed, hpacks, hok⟩ | ⟨i, hstops, -⟩
  · have hproduct := hpacks.lowerFactor_mul_upperFactor rfl hfits
    rw [hmatrix] at hproduct
    obtain ⟨hlower, hupper⟩ := hunique _ _ (isLowerTriangular_lowerFactor packed)
      (lowerFactor_self packed) (isUpperTriangular_upperFactor packed) hproduct
    refine ⟨_, _, ofMatrix_eq_ok_iff.mpr ⟨hfits, rfl⟩, ofMatrix_eq_ok_iff.mpr ⟨hfits, rfl⟩, ?_⟩
    rw [hok, ← hlower, ← hupper]
    rfl
  · have hfirst := hstops.firstSingular rfl hfits
    rw [hmatrix] at hfirst
    exact absurd (leadingRegular_mul hL hone hU hpivots) hfirst.not_leadingRegular

end DenseBench.Engine

namespace DenseBench.Elimination

def unitLower : Matrix (Fin 3) (Fin 3) ℚ := !![1, 0, 0; 2, 1, 0; -1, 3, 1]

def lastPivotZero : Matrix (Fin 3) (Fin 3) ℚ := !![2, 1, -1; 0, 3, 4; 0, 0, 0]

theorem lu_ofMatrix_mul_lastPivotZero :
    unitLower.IsLowerTriangular ∧ (∀ i, unitLower i i = 1) ∧ lastPivotZero.IsUpperTriangular ∧
      (∀ i : Fin 3, i.val + 1 < 3 → lastPivotZero i i ≠ 0) ∧
      ∃ a l u, ofMatrix .float64 (unitLower * lastPivotZero) = .ok a ∧
        ofMatrix .float64 unitLower = .ok l ∧ ofMatrix .float64 lastPivotZero = .ok u ∧
        (Engine.parallel .sequential).lu a = .ok (l, u) := by
  have hlower : unitLower.IsLowerTriangular := by decide
  have hone : ∀ i, unitLower i i = 1 := by decide
  have hupper : lastPivotZero.IsUpperTriangular := by decide
  have hpivots : ∀ i : Fin 3, i.val + 1 < 3 → lastPivotZero i i ≠ 0 := by decide
  have hproduct : ofMatrix .float64 (unitLower * lastPivotZero) =
      .ok (factor .float64 fun i j => (unitLower * lastPivotZero) i j) :=
    ofMatrix_eq_ok_iff.mpr ⟨by decide, rfl⟩
  obtain ⟨⟨l, u, hl, hu, hlu⟩, -⟩ :=
    Engine.lu_ofMatrix_mul (.parallel .sequential) hlower hone hupper hpivots hproduct
  exact ⟨hlower, hone, hupper, hpivots, _, l, u, hproduct, hl, hu, hlu⟩

end DenseBench.Elimination
