import DenseBench.Proofs.Elimination.Outcome
import Mathlib

/-!
# The product of the factors

With exact arithmetic the unit lower triangular factor times the upper triangular one gives the
matrix back. The rows from the `k`-th step on are the product of what their packed rows hold from
column `k` on; this is kept from each step to the one before it.
-/

namespace DenseBench.Elimination

open NDArray

/-- The operations that elimination uses are those of a field. What dividing by zero gives is left
open. -/
class Exact (K : Type) [Field K] [Arith K] : Prop where
  zero_eq : (Arith.zero : K) = 0
  one_eq : (Arith.one : K) = 1
  sub_eq (x y : K) : Arith.sub x y = x - y
  mul_eq (x y : K) : Arith.mul x y = x * y
  div_eq (x y : K) : y ≠ 0 → Arith.div x y = x / y
  isZero_iff (x : K) : Arith.isZero x = true ↔ x = 0

variable {n : Nat}

section Packed

variable {α : Type} [Arith α]

/-- The lower triangular part of packed rows whose diagonal begins in column `k`. -/
def lowerPart (k : Nat) (done : List (Vector α n)) (i m : Nat) : α :=
  if m < i then cell done i (k + m) else if m = i then Arith.one else Arith.zero

/-- The upper triangular part of packed rows whose diagonal begins in column `k`. -/
def upperPart (k : Nat) (done : List (Vector α n)) (m j : Nat) : α :=
  if j < k + m then Arith.zero else cell done m j

theorem lowerPart_toList (packed : Vector (Vector α n) n) (i m : Fin n) :
    lowerPart 0 packed.toList i m = lowerEntry packed i m := by
  simp only [lowerPart, lowerEntry, Nat.zero_add, cell_toList, Fin.ext_iff]
  rfl

theorem upperPart_toList (packed : Vector (Vector α n) n) (m j : Fin n) :
    upperPart 0 packed.toList m j = upperEntry packed m j := by
  simp only [upperPart, upperEntry, Nat.zero_add, cell_toList]
  rfl

theorem lowerPart_cons_succ (k : Nat) (pivot : Vector α n) (done : List (Vector α n))
    (i m : Nat) :
    lowerPart k (pivot :: done) (i + 1) (m + 1) = lowerPart (k + 1) done i m := by
  have hcolumn : k + (m + 1) = k + 1 + m := by omega
  simp [lowerPart, hcolumn]

theorem upperPart_cons_succ (k : Nat) (pivot : Vector α n) (done : List (Vector α n))
    (m j : Nat) :
    upperPart k (pivot :: done) (m + 1) j = upperPart (k + 1) done m j := by
  have hcolumn : k + (m + 1) = k + 1 + m := by omega
  simp [upperPart, hcolumn]

/-- The columns before the first step's are left as they are. -/
theorem Packs.cell_of_lt {k : Nat} {rows done : List (Vector α n)} (h : Packs k rows done)
    {i j : Nat} (hi : i < rows.length) (hj : j < k) (hjn : j < n) :
    cell done i j = cell rows i j := by
  induction h generalizing i with
  | nil k => cases hi
  | cons hk hpivot hbelow ih =>
    cases i with
    | zero => simp [hjn]
    | succ i =>
      have hi' : i < _ := Nat.lt_of_succ_lt_succ hi
      rw [cell_cons_succ, cell_cons_succ, ih (by simpa using hi') (by omega),
        cell_map_eliminateRow hk _ hi' hjn, if_pos hj]

end Packed

variable {K : Type} [Field K] [Arith K] [Exact K]

/-- Every entry from the first step's column on is the product of the two parts. -/
theorem Packs.cell_eq_sum {k : Nat} {rows done : List (Vector K n)} (h : Packs k rows done)
    {i j : Nat} (hi : i < rows.length) (hkj : k ≤ j) (hjn : j < n) :
    cell rows i j =
      ∑ m ∈ Finset.range rows.length, lowerPart k done i m * upperPart k done m j := by
  induction h generalizing i with
  | nil k => cases hi
  | @cons k pivot rest done hk hpivot hbelow ih =>
    rw [List.length_cons, Finset.sum_range_succ']
    cases i with
    | zero =>
      have hrest : ∀ m ∈ Finset.range rest.length,
          lowerPart k (pivot :: done) 0 (m + 1) * upperPart k (pivot :: done) (m + 1) j = 0 := by
        intro m _
        simp [lowerPart, Exact.zero_eq]
      rw [Finset.sum_eq_zero hrest]
      simp [lowerPart, upperPart, Exact.one_eq, hjn, Nat.not_lt.mpr hkj]
    | succ i =>
      have hi' : i < rest.length := Nat.lt_of_succ_lt_succ hi
      have hne : pivot[k] ≠ 0 := by
        intro hzero
        have hstop := hpivot (List.ne_nil_of_length_pos (Nat.zero_lt_of_lt hi'))
        rw [(Exact.isZero_iff _).mpr hzero] at hstop
        cases hstop
      have hfactor : cell done i k = cell rest i k / pivot[k] := by
        rw [hbelow.cell_of_lt (by simpa using hi') (Nat.lt_succ_self k) hk,
          cell_map_eliminateRow hk _ hi' hk, if_neg (Nat.lt_irrefl k), if_pos rfl,
          Exact.div_eq _ _ hne]
      have hlower : lowerPart k (pivot :: done) (i + 1) 0 = cell rest i k / pivot[k] := by
        simp [lowerPart, hfactor]
      have hupper : upperPart k (pivot :: done) 0 j = pivot[j] := by
        simp [upperPart, hjn, Nat.not_lt.mpr hkj]
      simp only [lowerPart_cons_succ, upperPart_cons_succ, cell_cons_succ]
      rw [hlower, hupper]
      rcases Nat.eq_or_lt_of_le hkj with rfl | hlt
      · have hsum : ∀ m ∈ Finset.range rest.length,
            lowerPart (k + 1) done i m * upperPart (k + 1) done m k = 0 := by
          intro m _
          simp [upperPart, Exact.zero_eq, show k < k + 1 + m by omega]
        rw [Finset.sum_eq_zero hsum, zero_add, div_mul_cancel₀ _ hne]
      · have hrow := ih (i := i) (by simpa using hi') hlt
        rw [List.length_map, cell_map_eliminateRow hk _ hi' hjn, if_neg (by omega),
          if_neg (by omega), Exact.div_eq _ _ hne, Exact.sub_eq, Exact.mul_eq] at hrow
        rw [← hrow, sub_add_cancel]

end DenseBench.Elimination

namespace DenseBench.Engine

open NDArray Elimination

theorem factorType_of_ne {dtype : ElementType} (h : dtype ≠ .float32) :
    factorType dtype = .float64 := by
  cases dtype <;> simp_all [factorType, ElementType.isFloat]

/-- With exact arithmetic and factors that are not rounded, the factors of a square array are unit
lower triangular and upper triangular, and their product is the array. A zero pivot is a fault only
above the last row. -/
theorem lu_mul_eq {K : Type} [Field K] [Scalar K] [Exact K] (engine : Engine) {n : Nat}
    {a : NDArray K} (hshape : a.shape = [n, n]) (hdtype : a.dtype ≠ .float32) :
    (∀ l u, engine.lu a = .ok (l, u) →
      (l.shape = [n, n] ∧ l.dtype = .float64 ∧ l.data.size = n * n) ∧
      (u.shape = [n, n] ∧ u.dtype = .float64 ∧ u.data.size = n * n) ∧
      (∀ i, l.matrix n i i = 1) ∧ (∀ i j, i < j → l.matrix n i j = 0) ∧
      (∀ i j, j < i → u.matrix n i j = 0) ∧
      ∀ i j, ∑ m, l.matrix n i m * u.matrix n m j = a.matrix n i j) ∧
    (n * n < wordLimit → ∀ e, engine.lu a = .error e →
      ∃ k, k + 1 < n ∧ e = .singularPivot k) := by
  have hfloat : factorType a.dtype = .float64 := factorType_of_ne hdtype
  constructor
  · intro l u h
    have hfits := square_lt_of_lu_eq_ok hshape h
    obtain ⟨packed, hpacks, rfl, rfl⟩ := packs_of_lu_eq_ok hshape h
    rw [hfloat]
    have hlower : ∀ i j, (factor .float64 (lowerEntry packed)).matrix n i j =
        lowerEntry packed i j := matrix_factor hfits .float64 _
    have hupper : ∀ i j, (factor .float64 (upperEntry packed)).matrix n i j =
        upperEntry packed i j := matrix_factor hfits .float64 _
    refine ⟨⟨rfl, rfl, by simp [factor]⟩, ⟨rfl, rfl, by simp [factor]⟩, ?_, ?_, ?_, ?_⟩
    · intro i
      simp [hlower, lowerEntry, Exact.one_eq]
    · intro i j hij
      simp [hlower, lowerEntry, hij.not_gt, hij.ne', Exact.zero_eq]
    · intro i j hji
      simp [hupper, upperEntry, hji, Exact.zero_eq]
    · intro i j
      have hlen : (rowsOf n a.data).length = n := by simp [rowsOf]
      have hi : i.val < (rowsOf n a.data).length := hlen.symm ▸ i.isLt
      have hsum := hpacks.cell_eq_sum hi (Nat.zero_le j) j.isLt
      rw [hlen, cell_rowsOf, ← matrix_apply hshape hfits, Finset.sum_range] at hsum
      rw [hsum]
      refine Finset.sum_congr rfl fun m _ => ?_
      rw [hlower, hupper, lowerPart_toList, upperPart_toList]
  · intro hfits e he
    rcases lu_square engine hshape hfits with ⟨packed, _, hok⟩ | ⟨i, hstops, herror⟩
    · rw [hok] at he
      cases he
    · rw [herror] at he
      cases he
      refine ⟨i, ?_, rfl⟩
      simpa [rowsOf] using hstops.lt

end DenseBench.Engine

namespace DenseBench.Elimination

/-- Rational numbers as elements. What elimination does not use gives its operand back. -/
instance rationals : Scalar ℚ where
  zero := 0
  one := 1
  sub x y := x - y
  mul x y := x * y
  div x y := x / y
  isZero x := x == 0
  ofNat n := n
  add x y := x + y
  pow x _ := x
  neg x := -x
  abs x := |x|
  sqrt x := x
  exp x := x
  log x := x
  sin x := x
  cos x := x
  same x y := x == y
  less x y := x < y
  lessEq x y := x ≤ y
  isNaN _ := false
  nan := 0
  lowest := 0
  highest := 0
  round _ x := x
  unit32 w := (w >>> 8).toNat / 2 ^ 24
  unit64 w := (w >>> 11).toNat / 2 ^ 53

instance : Exact ℚ where
  zero_eq := rfl
  one_eq := rfl
  sub_eq _ _ := rfl
  mul_eq _ _ := rfl
  div_eq _ _ _ := rfl
  isZero_iff _ := beq_iff_eq

/-- A matrix without an inverse: its last pivot is zero. -/
def rankOne : NDArray ℚ := ⟨[2, 2], .int64, #[2, 1, 4, 2]⟩

theorem lu_mul_eq_rankOne :
    rankOne.shape = [2, 2] ∧ rankOne.dtype ≠ .float32 ∧
      ∃ l u, (Engine.parallel .sequential).lu rankOne = .ok (l, u) ∧
        ∀ i j, ∑ m, l.matrix 2 i m * u.matrix 2 m j = rankOne.matrix 2 i j := by
  have hdtype : rankOne.dtype ≠ .float32 := by decide
  have hok : (Engine.parallel .sequential).lu rankOne =
      .ok (⟨[2, 2], .float64, #[1, 0, 2, 1]⟩, ⟨[2, 2], .float64, #[2, 1, 0, 0]⟩) := by cbv
  obtain ⟨-, -, -, -, -, hsum⟩ :=
    (Engine.lu_mul_eq (.parallel .sequential) (n := 2) rfl hdtype).1 _ _ hok
  exact ⟨rfl, hdtype, _, _, hok, hsum⟩

end DenseBench.Elimination
