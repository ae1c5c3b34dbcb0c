import DenseBench.Proofs.Double.Coercion
import DenseBench.Proofs.Guarded.Pool
import DenseBench.Proofs.NDArray.Reordered
import Mathlib.Data.Nat.Factorization.PrimePow

/-!
# Unchecked zeros

Nothing checks the shape of zeros. Of a shape with too many elements the number of zeros wraps
around, so a matrix has places that its buffer does not have, and elimination may find its first
row cut short.
-/

namespace DenseBench

namespace NDArray

variable {α : Type} [Scalar α] {rows columns : Nat} {dtype : ElementType}

theorem zeros_eq (shape : List Nat) (dtype : ElementType) :
    (zeros shape dtype : NDArray α) =
      ⟨shape, dtype, Array.replicate (shape.prod % wordLimit) Arith.zero⟩ := by
  rw [zeros, wrappedCount_eq]

theorem size_zeros_eq_iff {shape : List Nat} :
    (zeros shape dtype : NDArray α).data.size = shape.prod ↔ shape.prod < wordLimit := by
  rw [zeros_eq, Array.size_replicate]
  exact Nat.mod_eq_iff_lt (by decide)

/-! ## Places of a matrix -/

theorem wordLimit_le_leadingCount (hrows : rows < wordLimit) :
    wordLimit ≤ leadingCount [rows, columns] ↔ wordLimit ≤ rows * columns := by
  obtain rfl | hr := Nat.eq_zero_or_pos rows
  · rw [leadingCount_zero_cons, Nat.zero_mul]
    decide
  · obtain rfl | hc := Nat.eq_zero_or_pos columns
    · rw [leadingCount_cons hr.ne', leadingCount_zero_cons, Nat.mul_one, Nat.mul_zero]
      exact iff_of_false hrows.not_ge (by decide)
    · rw [leadingCount_of_not_mem (by simp [hr.ne, hc.ne])]
      simp

theorem get2?_zeros {row column : Nat} (hrow : row < rows) (hcolumn : column < columns) :
    (zeros [rows, columns] dtype : NDArray α).get2? row column =
      if offset columns row column % wordLimit < rows * columns % wordLimit then some Arith.zero
      else none := by
  simp [zeros_eq, get2?, hrow, hcolumn, Array.getElem?_replicate]

/-- The place behind the last zero is one of the matrix if their number has wrapped around. -/
theorem exists_get2?_zeros_eq_none :
    (∃ row < rows, ∃ column < columns,
      (zeros [rows, columns] dtype : NDArray α).get2? row column = none) ↔
        wordLimit ≤ rows * columns := by
  constructor
  · rintro ⟨row, hrow, column, hcolumn, hnone⟩
    by_contra hlt
    have hplace := offset_lt_mul hrow hcolumn
    rw [get2?_zeros hrow hcolumn, Nat.mod_eq_of_lt (not_le.mp hlt),
      Nat.mod_eq_of_lt (hplace.trans (not_le.mp hlt)), if_pos hplace] at hnone
    cases hnone
  · intro hmany
    have hword : rows * columns % wordLimit < wordLimit := Nat.mod_lt _ (by decide)
    have hplace : rows * columns % wordLimit < rows * columns := hword.trans_le hmany
    have hcolumns : 0 < columns := Nat.pos_of_mul_pos_left (Nat.zero_lt_of_lt hplace)
    have hrow : rows * columns % wordLimit / columns < rows :=
      Nat.div_lt_of_lt_mul (Nat.mul_comm rows columns ▸ hplace)
    have hcolumn := Nat.mod_lt (rows * columns % wordLimit) hcolumns
    refine ⟨_, hrow, _, hcolumn, ?_⟩
    rw [get2?_zeros hrow hcolumn, Guarded.offset_div_mod, Nat.mod_mod,
      if_neg (Nat.lt_irrefl _)]

/-- Modulo a power of two, no other squares than those of zero and one are their own roots. -/
theorem square_mod_ne {side : Nat} (hside : side < wordLimit) (hmany : wordLimit ≤ side * side) :
    side * side % wordLimit ≠ side := by
  intro heq
  have hpos : 0 < side := Nat.pos_of_mul_pos_left ((by decide : 0 < wordLimit).trans_le hmany)
  have hcongr : side ≡ side * side [MOD wordLimit] := by
    rw [Nat.ModEq, heq, Nat.mod_eq_of_lt hside]
  have hdvd : wordLimit ∣ side * (side - 1) := by
    rw [Nat.mul_sub_one]
    exact (Nat.modEq_iff_dvd' (Nat.le_mul_self side)).mp hcongr
  have hcoprime : side.Coprime (side - 1) :=
    (Nat.coprime_self_sub_right hpos).mpr (Nat.coprime_one_right side)
  have hpower : IsPrimePow wordLimit := Nat.prime_two.isPrimePow.pow (by decide)
  obtain hroot | hless := (hcoprime.isPrimePow_dvd_mul hpower).mp hdvd
  · exact hside.not_ge (Nat.le_of_dvd hpos hroot)
  · obtain hone | hmore := Nat.eq_zero_or_pos (side - 1)
    · have hsmall : side * side ≤ 1 * 1 :=
        Nat.mul_self_le_mul_self (Nat.le_of_sub_eq_zero hone)
      exact (hmany.trans hsmall).not_gt (by decide)
    · exact ((Nat.le_of_dvd hmore hless).trans (Nat.sub_le side 1)).not_gt hside

end NDArray

namespace Guarded

open NDArray

/-! ## Elimination of zeros -/

/-- What ends elimination in the first column of `count` zeros: a fault if the first row is cut
short, and an error if there is more than the first row. -/
def firstStop (n count : Nat) : Option Error :=
  if count < n then none else some (.singularPivot 0)

section FirstColumn

variable {α : Type} {n count : Nat}

theorem firstColumn_zeros [Arith α] (hzero : Arith.isZero (Arith.zero : α) = true) (hpos : 0 < n)
    (hn : n < wordLimit) (hne : count ≠ n) :
    reduceColumn n 0 (List.replicate count (Arith.zero : α)) = (firstStop n count).map .error ∧
      ∀ schedule, poolColumn schedule n 0 (List.replicate count (Arith.zero : α)) =
        (firstStop n count).map .error := by
  have hrow : multiply? (0 + 1) n = some n := by simp [multiply?, hn]
  have hstart : multiply? 0 n = some 0 := by simp [multiply?, wordLimit]
  by_cases hshort : count < n
  · have hcut : cut? (List.replicate count (Arith.zero : α)) n = none := by
      simp [cut?, hshort]
    rw [firstStop, if_pos hshort]
    constructor
    · simp [reduceColumn, hrow, hcut]
    · intro schedule
      simp [poolColumn, hrow, hcut]
  · have hlong : n < count := by omega
    have hcut : cut? (List.replicate count (Arith.zero : α)) n =
        some (List.replicate n Arith.zero, List.replicate (count - n) Arith.zero) := by
      simp [cut?, hlong.le, List.splitAt_eq]
    have hfirst (row : List α) : cut? row 0 = some ([], row) := by simp [cut?]
    have hpivot : (List.replicate n (Arith.zero : α))[0]? = some Arith.zero := by simp [hpos]
    have hrest : count - n ≠ 0 := by omega
    rw [firstStop, if_neg hshort]
    constructor
    · simp [reduceColumn, hrow, hcut, hstart, hfirst, hpivot, hzero, hrest]
    · intro schedule
      simp [poolColumn, hrow, hcut, hstart, hfirst, hpivot, hzero, hrest]

theorem exists_range_eq_cons (hpos : 0 < n) : ∃ steps, List.range n = 0 :: steps := by
  rw [List.range_eq_range']
  exact ⟨_, List.range'_eq_cons_iff.mpr ⟨rfl, hpos, rfl⟩⟩

variable {a : NDArray α}

theorem get2?_of_rank (h : a.shape.length ≠ 2) (row column : Nat) :
    get2? a row column = some none := by
  unfold get2?
  split
  · next rows columns hshape => exact absurd (congrArg List.length hshape) h
  · rfl

variable [Scalar α] {stop : Option Error}

theorem lu_of_firstColumn (hdim : a.squareDim = .ok n) (hpos : 0 < n)
    (hfirst : reduceColumn n 0 a.data.toList = stop.map .error) : lu a = stop.map .error := by
  obtain ⟨steps, hsteps⟩ := exists_range_eq_cons hpos
  rw [lu, hdim]
  dsimp only
  rw [hsteps, reduceColumns, hfirst]
  cases stop <;> rfl

theorem pooledLu_of_firstColumn {schedule : Schedule} (hdim : a.squareDim = .ok n) (hpos : 0 < n)
    (hfirst : poolColumn schedule n 0 a.data.toList = stop.map .error) :
    pooledLu schedule a = stop.map .error := by
  obtain ⟨steps, hsteps⟩ := exists_range_eq_cons hpos
  rw [pooledLu, hdim]
  dsimp only
  rw [hsteps, poolColumns, hfirst]
  cases stop <;> rfl

theorem lu_zeros (hzero : Arith.isZero (Arith.zero : α) = true) (dtype : ElementType)
    (hn : n < wordLimit) (hmany : wordLimit ≤ n * n) :
    lu (.zeros [n, n] dtype : NDArray α) = (firstStop n (n * n % wordLimit)).map .error ∧
      ∀ schedule, pooledLu schedule (.zeros [n, n] dtype : NDArray α) =
        (firstStop n (n * n % wordLimit)).map .error := by
  have hpos : 0 < n := Nat.pos_of_mul_pos_left ((by decide : 0 < wordLimit).trans_le hmany)
  have hdim : (NDArray.zeros [n, n] dtype : NDArray α).squareDim = .ok n :=
    squareDim_eq_ok_iff.mpr rfl
  have hdata : (NDArray.zeros [n, n] dtype : NDArray α).data.toList =
      List.replicate (n * n % wordLimit) Arith.zero := by
    simp [NDArray.zeros_eq]
  obtain ⟨hcolumn, hpool⟩ := firstColumn_zeros hzero hpos hn (square_mod_ne hn hmany)
  constructor
  · exact lu_of_firstColumn hdim hpos (hdata ▸ hcolumn)
  · intro schedule
    exact pooledLu_of_firstColumn hdim hpos (hdata ▸ hpool schedule)

theorem lu_of_not_square (h : ∀ n, a.shape ≠ [n, n]) :
    lu a = some (.error (.notSquare a.shape)) ∧
      ∀ schedule, pooledLu schedule a = some (.error (.notSquare a.shape)) := by
  have hdim := squareDim_of_not_square h
  constructor
  · rw [lu, hdim]
  · intro schedule
    rw [pooledLu, hdim]

end FirstColumn

end Guarded

namespace NDArray

/-- The zeros of every shape. There are as many as the shape says if that is a word, and those of a
shape that can be counted make a valid array. Of a shape that is refused, every matrix has a place
outside its buffer, elimination of a square one ends in the first column, and no array that is
not a matrix is read at all. -/
structure ZerosUnchecked (dtype : ElementType) : Prop where
  zeros_eq (shape : List Nat) : (zeros shape dtype : NDArray Float) =
    ⟨shape, dtype, Array.replicate (shape.prod % wordLimit) Arith.zero⟩
  size_eq_iff (shape : List Nat) :
    (zeros shape dtype : NDArray Float).data.size = shape.prod ↔ shape.prod < wordLimit
  valid {shape : List Nat} {count : Nat} : elementCount shape = .ok count →
    (zeros shape dtype : NDArray Float).Valid
  get2?_counted {shape : List Nat} {count : Nat} : elementCount shape = .ok count →
    ∀ row column, Guarded.get2? (zeros shape dtype : NDArray Float) row column =
      some ((zeros shape dtype).get2? row column)
  lu_counted {shape : List Nat} {count : Nat} : elementCount shape = .ok count →
    Guarded.lu (zeros shape dtype : NDArray Float) =
        some (Engine.reference.lu (zeros shape dtype)) ∧
      ∀ schedule, Guarded.pooledLu schedule (zeros shape dtype : NDArray Float) =
        some (Engine.reference.lu (zeros shape dtype))
  get2?_refused_iff {rows : Nat} (columns : Nat) : rows < wordLimit →
    ((∃ e, elementCount [rows, columns] = .error e) ↔
      ∃ row < rows, ∃ column < columns,
        (zeros [rows, columns] dtype : NDArray Float).get2? row column = none)
  lu_refused {side : Nat} {e : Error} : side < wordLimit →
    elementCount [side, side] = .error e →
    Guarded.lu (zeros [side, side] dtype : NDArray Float) =
        (Guarded.firstStop side (side * side % wordLimit)).map .error ∧
      ∀ schedule, Guarded.pooledLu schedule (zeros [side, side] dtype : NDArray Float) =
        (Guarded.firstStop side (side * side % wordLimit)).map .error
  get2?_of_rank {shape : List Nat} : shape.length ≠ 2 → ∀ row column,
    Guarded.get2? (zeros shape dtype : NDArray Float) row column = some none
  lu_of_not_square {shape : List Nat} : (∀ side, shape ≠ [side, side]) →
    Guarded.lu (zeros shape dtype : NDArray Float) = some (.error (.notSquare shape)) ∧
      ∀ schedule, Guarded.pooledLu schedule (zeros shape dtype : NDArray Float) =
        some (.error (.notSquare shape))

theorem zeros_unchecked (dtype : ElementType) : ZerosUnchecked dtype where
  zeros_eq shape := NDArray.zeros_eq shape dtype
  size_eq_iff shape := size_zeros_eq_iff
  valid hcount := Valid.zeros hcount dtype
  get2?_counted hcount := Guarded.get2?_eq (Valid.zeros hcount dtype)
  lu_counted := by
    intro shape count hcount
    have hvalid := Valid.zeros (α := Float) hcount dtype
    refine ⟨Guarded.lu_eq .reference hvalid.count, ?_⟩
    intro schedule
    rw [Guarded.pooledLu_eq_lu schedule hvalid.count]
    exact Guarded.lu_eq .reference hvalid.count
  get2?_refused_iff := by
    intro rows columns hrows
    rw [exists_get2?_zeros_eq_none, ← wordLimit_le_leadingCount hrows]
    simp only [elementCount_eq_error_iff, exists_and_left, exists_eq, and_true]
  lu_refused := by
    intro side e hside he
    apply Guarded.lu_zeros (by decide +kernel) dtype hside
    exact (wordLimit_le_leadingCount hside).mp (elementCount_eq_error_iff.mp he).1
  get2?_of_rank := by
    intro shape hrank
    exact Guarded.get2?_of_rank (a := zeros shape dtype) hrank
  lu_of_not_square := by
    intro shape hshape
    exact Guarded.lu_of_not_square (a := zeros shape dtype) hshape

/-- The number of elements of this square is no word, and zero is what remains of it. -/
theorem zeros_unchecked_empty :
    elementCount [2 ^ 32, 2 ^ 32] =
        .error (.invalidSize (.tooManyElements [2 ^ 32, 2 ^ 32])) ∧
      (zeros [2 ^ 32, 2 ^ 32] .float64 : NDArray Float).data.size = 0 ∧
      [2 ^ 32, 2 ^ 32].prod = 2 ^ 64 ∧
      (zeros [2 ^ 32, 2 ^ 32] .float64 : NDArray Float).get2? 0 0 = none ∧
      Guarded.lu (zeros [2 ^ 32, 2 ^ 32] .float64 : NDArray Float) = none := by
  have hnone : 2 ^ 32 * 2 ^ 32 % wordLimit = 0 := by decide
  refine ⟨by decide +kernel, ?_, by decide, ?_, ?_⟩
  · rw [zeros_eq, Array.size_replicate]
    decide
  · rw [get2?_zeros (by decide) (by decide), hnone]
    rfl
  · rw [(Guarded.lu_zeros (by decide +kernel) .float64 (by decide) (by decide)).1, hnone]
    rfl

/-- A matrix that can be counted, and a square of which little more than two rows remain. -/
theorem zeros_unchecked_two_rows :
    (elementCount [2, 3] = .ok 6 ∧ (zeros [2, 3] .int8 : NDArray Float).Valid) ∧
      (2 ^ 33 < wordLimit ∧ ∃ row < 2 ^ 33, ∃ column < 2 ^ 32,
        (zeros [2 ^ 33, 2 ^ 32] .int8 : NDArray Float).get2? row column = none) ∧
      (elementCount [2 ^ 32 + 1, 2 ^ 32 + 1] =
          .error (.invalidSize (.tooManyElements [2 ^ 32 + 1, 2 ^ 32 + 1])) ∧
        Guarded.lu (zeros [2 ^ 32 + 1, 2 ^ 32 + 1] .int8 : NDArray Float) =
          some (.error (.singularPivot 0))) ∧
      ([2, 3, 5].length ≠ 2 ∧
        Guarded.get2? (zeros [2, 3, 5] .int8 : NDArray Float) 0 0 = some none) ∧
      ((∀ side, [2, 3] ≠ [side, side]) ∧
        Guarded.lu (zeros [2, 3] .int8 : NDArray Float) = some (.error (.notSquare [2, 3]))) := by
  have hzeros := zeros_unchecked .int8
  have hside : elementCount [2 ^ 32 + 1, 2 ^ 32 + 1] =
      .error (.invalidSize (.tooManyElements [2 ^ 32 + 1, 2 ^ 32 + 1])) := by
    decide +kernel
  have hmany : elementCount [2 ^ 33, 2 ^ 32] =
      .error (.invalidSize (.tooManyElements [2 ^ 33, 2 ^ 32])) := by
    decide +kernel
  have hnot : ∀ side, [2, 3] ≠ [side, side] := by
    rintro side h
    cases h
  refine ⟨⟨rfl, hzeros.valid rfl⟩, ⟨by decide, ?_⟩, ⟨hside, ?_⟩, ⟨by decide, ?_⟩, hnot, ?_⟩
  · exact (hzeros.get2?_refused_iff _ (by decide)).mp ⟨_, hmany⟩
  · exact (hzeros.lu_refused (by decide) hside).1
  · exact hzeros.get2?_of_rank (by decide) 0 0
  · exact (hzeros.lu_of_not_square hnot).1

end NDArray

end DenseBench
