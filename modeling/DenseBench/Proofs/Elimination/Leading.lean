import DenseBench.Proofs.Elimination.Minors

/-!
# Leading blocks

The first rows and columns of a matrix are eliminated as they are within the whole matrix: no step
looks at a row below or a column behind them. So the factors of a leading block are the leading
blocks of the factors, and a stop shows in every block that has a row below it. No law of arithmetic
is used.
-/

namespace DenseBench

open NDArray Elimination

variable {α : Type} {m n : Nat}

namespace NDArray

variable [Arith α]

/-- The array of the first `m` rows and columns of a matrix. -/
def leadingBlock (a : NDArray α) (m : Nat) : NDArray α :=
  ⟨[m, m], a.dtype, bufferOf m fun i j => a.matrix m i j⟩

theorem matrix_eq_leading (a : NDArray α) (hm : m ≤ n) : a.matrix m = leading (a.matrix n) m hm :=
  rfl

theorem getD_leadingBlock (a : NDArray α) (i j : Fin m) :
    (a.leadingBlock m).data.getD (offset m i j) Arith.zero = a.matrix m i j := by
  rw [leadingBlock, Array.getD_eq_getD_getElem?, getElem?_bufferOf]
  rfl

end NDArray

namespace Elimination

def firstColumns (hm : m ≤ n) (row : Vector α n) : Vector α m :=
  .ofFn fun j => row[j.val]

/-- The first `r` of the rows, each cut off after `m` columns. -/
def leadingRows (hm : m ≤ n) (r : Nat) (rows : List (Vector α n)) : List (Vector α m) :=
  (rows.take r).map (firstColumns hm)

section Steps

variable [Arith α]

theorem eliminateRow_firstColumns {k : Nat} (hk : k < m) (hm : m ≤ n) (pivot row : Vector α n) :
    eliminateRow k hk (firstColumns hm pivot) (firstColumns hm row) =
      firstColumns hm (eliminateRow k (hk.trans_le hm) pivot row) := by
  ext j hj
  simp [eliminateRow, firstColumns]

theorem map_eliminateRow_leadingRows {k : Nat} (hk : k < m) (hm : m ≤ n) (pivot : Vector α n)
    (r : Nat) (rows : List (Vector α n)) :
    (leadingRows hm r rows).map (eliminateRow k hk (firstColumns hm pivot)) =
      leadingRows hm r (rows.map (eliminateRow k (hk.trans_le hm) pivot)) := by
  rw [leadingRows, leadingRows, ← List.map_take, List.map_map, List.map_map]
  exact List.map_congr_left fun row _ => eliminateRow_firstColumns hk hm pivot row

theorem cell_leadingRows (hm : m ≤ n) {r : Nat} (rows : List (Vector α n)) {i j : Nat} (hi : i < r)
    (hj : j < m) : cell (leadingRows hm r rows) i j = cell rows i j := by
  have hjn : j < n := hj.trans_le hm
  cases hrow : rows[i]? with
  | none => simp [cell, leadingRows, List.getElem?_take_of_lt hi, hrow]
  | some row => simp [cell, leadingRows, List.getElem?_take_of_lt hi, hrow, firstColumns, hj, hjn]

/-! The rows from the `k`-th on are cut off where the leading block ends, after `r` of them. -/

theorem Packs.leading {k r : Nat} {rows done : List (Vector α n)} (h : Packs k rows done)
    (hm : m ≤ n) (hr : k + r = m) : Packs k (leadingRows hm r rows) (leadingRows hm r done) := by
  induction h generalizing r with
  | nil k => simpa [leadingRows] using Packs.nil k
  | @cons k pivot rest done hk hpivot hbelow ih =>
    cases r with
    | zero => exact .nil k
    | succ r =>
      have hkm : k < m := by omega
      refine .cons hkm ?_ ?_
      · intro hrest
        have hpivot' := hpivot (by rintro rfl; simp at hrest)
        simpa [firstColumns] using hpivot'
      · have hbelow' := ih (r := r) (by omega)
        rwa [← map_eliminateRow_leadingRows hkm] at hbelow'

theorem Stops.leading {k i r : Nat} {rows : List (Vector α n)} (h : Stops k rows i) (hm : m ≤ n)
    (hr : k + r = m) (hi : i + 1 < m) : Stops k (leadingRows hm r rows) i := by
  induction h generalizing r with
  | @here k pivot rest hk hrest hzero =>
    obtain ⟨r, rfl⟩ : ∃ d, r = d + 2 := ⟨r - 2, by omega⟩
    refine .here (by omega) ?_ (by simpa [firstColumns] using hzero)
    simpa [leadingRows] using hrest
  | @later k i pivot rest hk hpivot hbelow ih =>
    cases r with
    | zero =>
      have hle := hbelow.le
      omega
    | succ r =>
      have hkm : k < m := by omega
      refine .later hkm (by simpa [firstColumns] using hpivot) ?_
      have hbelow' := ih (r := r) (by omega) hi
      rwa [← map_eliminateRow_leadingRows hkm] at hbelow'

/-- A block that has no row below the row of the stop is packed. -/
theorem Stops.exists_packs_leading {k i r : Nat} {rows : List (Vector α n)} (h : Stops k rows i)
    (hm : m ≤ n) (hr : k + r = m) (hi : m ≤ i + 1) :
    ∃ done, Packs k (leadingRows hm r rows) done := by
  induction h generalizing r with
  | @here k pivot rest hk hrest hzero =>
    cases r with
    | zero => exact ⟨[], .nil k⟩
    | succ r =>
      obtain rfl : r = 0 := by omega
      exact ⟨_, .cons (by omega) nofun (.nil (k + 1))⟩
  | @later k i pivot rest hk hpivot hbelow ih =>
    cases r with
    | zero => exact ⟨[], .nil k⟩
    | succ r =>
      have hkm : k < m := by omega
      obtain ⟨done, hdone⟩ := ih (r := r) (by omega) hi
      rw [← map_eliminateRow_leadingRows hkm] at hdone
      exact ⟨_, .cons hkm (fun _ => by simpa [firstColumns] using hpivot) hdone⟩

theorem rowsOf_leadingBlock {a : NDArray α} (hshape : a.shape = [n, n])
    (hfits : n * n < wordLimit) (hm : m ≤ n) :
    rowsOf m (a.leadingBlock m).data = leadingRows hm m (rowsOf n a.data) := by
  apply List.ext_getElem
  · simp [rowsOf, leadingRows, hm]
  · intro i hi _
    have hrow : i < m := by simpa [rowsOf] using hi
    ext j hj
    have hentry : (a.leadingBlock m).data.getD (offset m i j) Arith.zero =
        a.data.getD (offset n i j) Arith.zero := by
      rw [getD_leadingBlock a ⟨i, hrow⟩ ⟨j, hj⟩, matrix_eq_leading a hm]
      exact matrix_apply hshape hfits _ _
    simpa [rowsOf, leadingRows, firstColumns] using hentry

end Steps

variable [Scalar α]

theorem factor_leadingBlock (hfits : n * n < wordLimit) (hm : m ≤ n) (dtype : ElementType)
    {entry : Fin n → Fin n → α} {entry' : Fin m → Fin m → α}
    (h : ∀ i j, entry' i j = entry (Fin.castLE hm i) (Fin.castLE hm j)) :
    factor dtype entry' = (factor dtype entry).leadingBlock m := by
  have hentry (i j : Fin m) :
      (factor dtype entry).matrix m i j = Scalar.coerce dtype (entry' i j) := by
    rw [matrix_eq_leading _ hm, h]
    exact matrix_factor hfits dtype entry (Fin.castLE hm i) (Fin.castLE hm j)
  simp only [leadingBlock, hentry]
  rw [factor, map_bufferOf]
  rfl

end Elimination

namespace Engine

variable [Scalar α]

/-- Factoring the leading blocks of a square array, on the same engine or on another one. If the
array has factors, a block has their leading blocks for factors. If the elimination stops, it stops
at the same row of each block that has a row below it, and the other blocks have factors. -/
theorem lu_leadingBlock (engine other : Engine) {a : NDArray α} (hshape : a.shape = [n, n])
    (hfits : n * n < wordLimit) (hm : m ≤ n) :
    (∀ l u, engine.lu a = .ok (l, u) →
      other.lu (a.leadingBlock m) = .ok (l.leadingBlock m, u.leadingBlock m)) ∧
    ∀ k, engine.lu a = .error (.singularPivot k) →
      (m ≤ k + 1 → ∃ l u, other.lu (a.leadingBlock m) = .ok (l, u)) ∧
      (k + 1 < m → other.lu (a.leadingBlock m) = .error (.singularPivot k)) := by
  have hfits' : m * m < wordLimit := (Nat.mul_le_mul hm hm).trans_lt hfits
  have hblock := lu_square other (a := a.leadingBlock m) rfl hfits'
  rw [rowsOf_leadingBlock hshape hfits hm] at hblock
  constructor
  · intro l u h
    obtain ⟨packed, hpacks, rfl, rfl⟩ := packs_of_lu_eq_ok hshape h
    have hleading := hpacks.leading hm (Nat.zero_add m)
    rcases hblock with ⟨packed', hpacks', hok⟩ | ⟨i, hstops, -⟩
    · have hentry (i j : Fin m) : packed'[i][j] = packed[Fin.castLE hm i][Fin.castLE hm j] := by
        have hcell : cell packed'.toList i j = cell packed.toList i j := by
          rw [hpacks'.eq hleading, cell_leadingRows hm _ i.isLt j.isLt]
        rw [cell_toList] at hcell
        exact hcell.trans (cell_toList packed (Fin.castLE hm i) (Fin.castLE hm j))
      rw [hok]
      congr 2
      · apply factor_leadingBlock hfits hm
        intro i j
        simp only [lowerEntry, hentry, Fin.val_castLE, Fin.ext_iff]
      · apply factor_leadingBlock hfits hm
        intro i j
        simp only [upperEntry, hentry, Fin.val_castLE]
    · exact absurd hstops hleading.not_stops
  · intro k h
    have hstops : Stops 0 (rowsOf n a.data) k := by
      rcases lu_square engine hshape hfits with ⟨packed, -, hok⟩ | ⟨i, hstops, herror⟩
      · rw [hok] at h
        cases h
      · rw [herror] at h
        cases h
        exact hstops
    constructor
    · intro hmk
      obtain ⟨done, hdone⟩ := hstops.exists_packs_leading hm (Nat.zero_add m) hmk
      rcases hblock with ⟨packed', -, hok⟩ | ⟨i, hstops', -⟩
      · exact ⟨_, _, hok⟩
      · exact absurd hstops' hdone.not_stops
    · intro hkm
      have hleading := hstops.leading hm (Nat.zero_add m) hkm
      rcases hblock with ⟨packed', hpacks', -⟩ | ⟨i, hstops', herror⟩
      · exact absurd hleading hpacks'.not_stops
      · rw [herror, hleading.eq hstops']

end Engine

namespace Elimination

/-- The first two rows agree up to a factor, so that the second pivot is zero. -/
def innerStop : NDArray ℚ :=
  ⟨[4, 4], .float64, #[1, 2, 3, 0, 2, 4, 5, 1, 1, 1, 1, 2, 0, 0, 0, 1]⟩

theorem lu_leadingBlock_innerStop :
    innerStop.shape = [4, 4] ∧ 4 * 4 < wordLimit ∧
      (Engine.parallel .sequential).lu innerStop = .error (.singularPivot 1) ∧
      (∃ l u, Engine.reference.lu (innerStop.leadingBlock 2) = .ok (l, u)) ∧
      Engine.reference.lu (innerStop.leadingBlock 3) = .error (.singularPivot 1) := by
  have hfits : 4 * 4 < wordLimit := by decide
  have hstop : (Engine.parallel .sequential).lu innerStop = .error (.singularPivot 1) := by cbv
  obtain ⟨hpacked, -⟩ := (Engine.lu_leadingBlock (.parallel .sequential) .reference rfl hfits
    (by decide : 2 ≤ 4)).2 1 hstop
  obtain ⟨-, hstopped⟩ := (Engine.lu_leadingBlock (.parallel .sequential) .reference rfl hfits
    (by decide : 3 ≤ 4)).2 1 hstop
  exact ⟨rfl, hfits, hstop, hpacked le_rfl, hstopped (by decide)⟩

end Elimination

end DenseBench
