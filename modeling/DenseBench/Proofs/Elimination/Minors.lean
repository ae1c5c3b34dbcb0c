import DenseBench.Proofs.Elimination.Factors

/-!
# Leading minors

With exact arithmetic the pivots tell which leading blocks of a matrix have an inverse. A step of
the elimination divides each leading minor by the pivot, so that the first zero pivot shows the
first minor that is zero.
-/

namespace DenseBench.Elimination

open NDArray Matrix

section Field

variable {K : Type} [Field K]

/-- The determinant of the first `m` rows and columns. -/
def minor (entry : Nat → Nat → K) (m : Nat) : K :=
  (Matrix.of fun i j : Fin m => entry i j).det

theorem minor_zero (entry : Nat → Nat → K) : minor entry 0 = 1 :=
  det_fin_zero

theorem minor_congr {entry other : Nat → Nat → K} {m : Nat}
    (h : ∀ i < m, ∀ j < m, entry i j = other i j) : minor entry m = minor other m := by
  unfold minor
  congr
  funext i j
  exact h i i.isLt j j.isLt

/-- What is left of the other rows and columns once the first row has been used. -/
def complement (entry : Nat → Nat → K) (i j : Nat) : K :=
  entry (i + 1) (j + 1) - entry (i + 1) 0 / entry 0 0 * entry 0 (j + 1)

theorem minor_succ {entry : Nat → Nat → K} (hpivot : entry 0 0 ≠ 0) (m : Nat) :
    minor entry (m + 1) = entry 0 0 * minor (complement entry) m := by
  let factor (i : Nat) : K := if i = 0 then 0 else entry i 0 / entry 0 0
  let cleared : Matrix (Fin (m + 1)) (Fin (m + 1)) K :=
    .of fun i j => entry i j - factor i * entry 0 j
  -- Multiples of the first row clear the first column and leave the determinant as it is.
  have hdet : minor entry (m + 1) = cleared.det := by
    apply det_eq_of_forall_row_eq_smul_add_const (fun i : Fin (m + 1) => factor i) 0 (if_pos rfl)
    intro i j
    simp [cleared, factor]
  have hcolumn (i : Fin m) : cleared i.succ 0 = 0 := by
    simp [cleared, factor, hpivot]
  rw [hdet, det_succ_column_zero, Fin.sum_univ_succ]
  simp only [hcolumn, mul_zero, zero_mul, Finset.sum_const_zero, add_zero]
  have hfirst : cleared 0 0 = entry 0 0 := by
    simp [cleared, factor]
  have hrest : cleared.submatrix (Fin.succAbove 0) Fin.succ =
      .of fun i j : Fin m => complement entry i j := by
    ext i j
    simp [cleared, factor, complement]
  rw [hfirst, hrest, Fin.val_zero, pow_zero, one_mul]
  rfl

end Field

variable {K : Type} [Field K] [Arith K] [Exact K] {n : Nat}

/-- The entries of the rows from column `k` on. -/
def trailing (k : Nat) (rows : List (Vector K n)) (i j : Nat) : K :=
  cell rows i (k + j)

theorem minor_trailing_cons {k m : Nat} (hk : k < n) {pivot : Vector K n} {rest : List (Vector K n)}
    (fits : k + (pivot :: rest).length = n) (hm : m ≤ rest.length) (hpivot : pivot[k] ≠ 0) :
    minor (trailing k (pivot :: rest)) (m + 1) =
      pivot[k] * minor (trailing (k + 1) (rest.map (eliminateRow k hk pivot))) m := by
  rw [List.length_cons] at fits
  have hfirst : trailing k (pivot :: rest) 0 0 = pivot[k] := cell_cons_zero pivot rest hk
  rw [minor_succ (by rwa [hfirst]), hfirst]
  congr 1
  apply minor_congr
  intro i hi j hj
  have hcolumn : k + (j + 1) = k + 1 + j := by omega
  have hj' : k + 1 + j < n := by omega
  have hentry : trailing k (pivot :: rest) (i + 1) (j + 1) = cell rest i (k + 1 + j) := by
    rw [trailing, hcolumn, cell_cons_succ]
  have hleft : trailing k (pivot :: rest) (i + 1) 0 = cell rest i k :=
    cell_cons_succ pivot rest i k
  have habove : trailing k (pivot :: rest) 0 (j + 1) = pivot[k + 1 + j] := by
    rw [trailing, hcolumn, cell_cons_zero pivot rest hj']
  rw [complement, hentry, hleft, habove, hfirst, trailing,
    cell_map_eliminateRow hk pivot (by omega) hj', if_neg (by omega), if_neg (by omega),
    Exact.div_eq _ _ hpivot, Exact.mul_eq, Exact.sub_eq]

theorem ne_zero_of_isZero_eq_false {x : K} (h : Arith.isZero x = false) : x ≠ 0 := by
  intro hzero
  rw [(Exact.isZero_iff x).mpr hzero] at h
  cases h

theorem Packs.minor_ne_zero {k : Nat} {rows done : List (Vector K n)} (h : Packs k rows done)
    (fits : k + rows.length = n) {m : Nat} (hm : m < rows.length) :
    minor (trailing k rows) m ≠ 0 := by
  induction h generalizing m with
  | nil k => cases hm
  | @cons k pivot rest done hk hpivot hbelow ih =>
    cases m with
    | zero =>
      rw [minor_zero]
      exact one_ne_zero
    | succ m =>
      have hm' : m < rest.length := Nat.lt_of_succ_lt_succ hm
      have hne : pivot[k] ≠ 0 :=
        ne_zero_of_isZero_eq_false (hpivot (List.ne_nil_of_length_pos (Nat.zero_lt_of_lt hm')))
      rw [minor_trailing_cons hk fits hm'.le hne]
      rw [List.length_cons] at fits
      exact mul_ne_zero hne (ih (by rw [List.length_map]; omega) (by rwa [List.length_map]))

/-- Where the elimination stops, the minors before are not zero and the next one is. -/
theorem Stops.minors {k i : Nat} {rows : List (Vector K n)} (h : Stops k rows i)
    (fits : k + rows.length = n) :
    ∃ d, i = k + d ∧ d + 1 < rows.length ∧ (∀ m ≤ d, minor (trailing k rows) m ≠ 0) ∧
      minor (trailing k rows) (d + 1) = 0 := by
  induction h with
  | @here k pivot rest hk hrest hzero =>
    refine ⟨0, rfl, ?_, ?_, ?_⟩
    · have := List.length_pos_iff.mpr hrest
      rw [List.length_cons]
      omega
    · rintro m ⟨⟩
      rw [minor_zero]
      exact one_ne_zero
    · have hfirst : trailing k (pivot :: rest) 0 0 = 0 :=
        (cell_cons_zero pivot rest hk).trans ((Exact.isZero_iff _).mp hzero)
      rw [minor, det_fin_one]
      exact hfirst
  | @later k i pivot rest hk hpivot hbelow ih =>
    have hne := ne_zero_of_isZero_eq_false hpivot
    have fits' := fits
    rw [List.length_cons] at fits'
    obtain ⟨d, hd, hlt, hbefore, hnext⟩ := ih (by rw [List.length_map]; omega)
    rw [List.length_map] at hlt
    refine ⟨d + 1, by omega, by rw [List.length_cons]; omega, ?_, ?_⟩
    · intro m hm
      cases m with
      | zero =>
        rw [minor_zero]
        exact one_ne_zero
      | succ m =>
        rw [minor_trailing_cons hk fits (by omega) hne]
        exact mul_ne_zero hne (hbefore m (Nat.le_of_succ_le_succ hm))
    · rw [minor_trailing_cons hk fits hlt.le hne, hnext, mul_zero]

/-! ## Leading blocks -/

/-- The first `m` rows and columns of a matrix. -/
def leading {α : Type} (A : Matrix (Fin n) (Fin n) α) (m : Nat) (hm : m ≤ n) :
    Matrix (Fin m) (Fin m) α :=
  A.submatrix (Fin.castLE hm) (Fin.castLE hm)

omit [Exact K] in
theorem minor_rowsOf {a : NDArray K} (hshape : a.shape = [n, n]) (hfits : n * n < wordLimit)
    {m : Nat} (hm : m ≤ n) :
    minor (trailing 0 (rowsOf n a.data)) m = (leading (a.matrix n) m hm).det := by
  unfold minor
  congr
  funext i j
  calc
    trailing 0 (rowsOf n a.data) i j = cell (rowsOf n a.data) i j := by
      rw [trailing, Nat.zero_add]
    _ = a.data.getD (offset n i j) Arith.zero :=
      cell_rowsOf a.data (Fin.castLE hm i) (Fin.castLE hm j)
    _ = a.matrix n (Fin.castLE hm i) (Fin.castLE hm j) :=
      (matrix_apply hshape hfits (Fin.castLE hm i) (Fin.castLE hm j)).symm

/-- Some leading block smaller than the matrix has no inverse, and the first of these has `k + 1`
rows. -/
def FirstSingular (A : Matrix (Fin n) (Fin n) K) (k : Nat) : Prop :=
  ∃ hk : k + 1 < n, (∀ m, 0 < m → ∀ hm : m ≤ k, (leading A m (by omega)).det ≠ 0) ∧
    (leading A (k + 1) hk.le).det = 0

/-- Every leading block smaller than the matrix has an inverse. -/
def LeadingRegular (A : Matrix (Fin n) (Fin n) K) : Prop :=
  ∀ m, 0 < m → ∀ hm : m < n, (leading A m hm.le).det ≠ 0

omit [Arith K] [Exact K] in
theorem FirstSingular.not_leadingRegular {A : Matrix (Fin n) (Fin n) K} {k : Nat}
    (h : FirstSingular A k) : ¬ LeadingRegular A := by
  obtain ⟨hk, -, hzero⟩ := h
  intro hregular
  exact hregular (k + 1) (Nat.succ_pos k) hk hzero

omit [Arith K] [Exact K] in
theorem FirstSingular.eq {A : Matrix (Fin n) (Fin n) K} {i k : Nat} (hi : FirstSingular A i)
    (hk : FirstSingular A k) : i = k := by
  obtain ⟨_, hbefore, hzero⟩ := hi
  obtain ⟨_, hbefore', hzero'⟩ := hk
  rcases Nat.lt_trichotomy i k with hlt | heq | hgt
  · exact absurd hzero (hbefore' (i + 1) (Nat.succ_pos i) hlt)
  · exact heq
  · exact absurd hzero' (hbefore (k + 1) (Nat.succ_pos k) hgt)

section rows

variable {a : NDArray K} (hshape : a.shape = [n, n]) (hfits : n * n < wordLimit)

include hshape hfits

theorem Packs.leadingRegular {done : List (Vector K n)} (h : Packs 0 (rowsOf n a.data) done) :
    LeadingRegular (a.matrix n) := by
  intro m _ hm
  rw [← minor_rowsOf hshape hfits]
  have hlength : (rowsOf n a.data).length = n := by simp [rowsOf]
  exact h.minor_ne_zero (by rw [hlength, Nat.zero_add]) (by rwa [hlength])

theorem Stops.firstSingular {i : Nat} (h : Stops 0 (rowsOf n a.data) i) :
    FirstSingular (a.matrix n) i := by
  have hlength : (rowsOf n a.data).length = n := by simp [rowsOf]
  obtain ⟨d, hd, hlt, hbefore, hzero⟩ := h.minors (by rw [hlength, Nat.zero_add])
  obtain rfl : i = d := by rw [hd, Nat.zero_add]
  rw [hlength] at hlt
  refine ⟨hlt, ?_, ?_⟩
  · intro m _ hm
    rw [← minor_rowsOf hshape hfits]
    exact hbefore m hm
  · rw [← minor_rowsOf hshape hfits]
    exact hzero

end rows

end DenseBench.Elimination

namespace DenseBench

open NDArray Elimination

namespace Engine

/-- With exact arithmetic, factoring a square array stops at a row if and only if the leading block
that ends there is the first that has no inverse, the whole matrix left out of account; if there is
none it succeeds. An array that is not square is refused, and there is no other fault. -/
theorem lu_error_iff_firstSingular {K : Type} [Field K] [Scalar K] [Exact K] (engine : Engine)
    (a : NDArray K) :
    (∀ n, a.shape = [n, n] → n * n < wordLimit →
      (∀ k, engine.lu a = .error (.singularPivot k) ↔ FirstSingular (a.matrix n) k) ∧
      ((∃ l u, engine.lu a = .ok (l, u)) ↔ LeadingRegular (a.matrix n)) ∧
      ∀ e, engine.lu a = .error e → ∃ k, e = .singularPivot k) ∧
    ((∀ n, a.shape ≠ [n, n]) → engine.lu a = .error (.notSquare a.shape)) := by
  constructor
  · intro n hshape hfits
    rcases lu_square engine hshape hfits with ⟨packed, hpacks, hok⟩ | ⟨i, hstops, herror⟩
    · have hregular := hpacks.leadingRegular hshape hfits
      rw [hok]
      refine ⟨?_, iff_of_true ⟨_, _, rfl⟩ hregular, nofun⟩
      intro k
      exact iff_of_false nofun fun hfirst => hfirst.not_leadingRegular hregular
    · have hfirst := hstops.firstSingular hshape hfits
      rw [herror]
      refine ⟨?_, iff_of_false nofun hfirst.not_leadingRegular, ?_⟩
      · intro k
        constructor
        · rintro ⟨⟩
          exact hfirst
        · intro hk
          rw [hfirst.eq hk]
      · rintro e ⟨⟩
        exact ⟨i, rfl⟩
  · intro hshape
    rw [lu, squareDim_of_not_square hshape]

end Engine

namespace Elimination

/-- The first two rows of this matrix agree in the first two columns, up to a factor. -/
def lateStop : NDArray ℚ := ⟨[3, 3], .int64, #[1, 2, 3, 2, 4, 5, 1, 1, 1]⟩

theorem lu_error_iff_firstSingular_lateStop :
    lateStop.shape = [3, 3] ∧ 3 * 3 < wordLimit ∧ FirstSingular (lateStop.matrix 3) 1 ∧
      (Engine.parallel .sequential).lu lateStop = .error (.singularPivot 1) ∧
      Engine.reference.lu (⟨[2, 3], .bool, #[1, 0, 0, 0, 1, 0]⟩ : NDArray ℚ) =
        .error (.notSquare [2, 3]) := by
  have hfits : 3 * 3 < wordLimit := by decide
  have hfirst : FirstSingular (lateStop.matrix 3) 1 := by
    refine ⟨by decide, ?_, ?_⟩
    · intro m hpos hm
      obtain rfl : m = 1 := by omega
      rw [Matrix.det_fin_one]
      exact (one_ne_zero : (1 : ℚ) ≠ 0)
    · rw [Matrix.det_fin_two]
      change (1 : ℚ) * 4 - 2 * 2 = 0
      norm_num
  obtain ⟨hsquare, -⟩ := Engine.lu_error_iff_firstSingular (.parallel .sequential) lateStop
  obtain ⟨-, hother⟩ := Engine.lu_error_iff_firstSingular .reference
    (⟨[2, 3], .bool, #[1, 0, 0, 0, 1, 0]⟩ : NDArray ℚ)
  refine ⟨rfl, hfits, hfirst, ((hsquare 3 rfl hfits).1 1).mpr hfirst, hother ?_⟩
  intro n hshape
  simp only [List.cons.injEq] at hshape
  omega

end Elimination

end DenseBench
