import DenseBench.Proofs.Elimination.Steps
import DenseBench.Proofs.NDArray.Count
import Mathlib.Data.List.OfFn
import Mathlib.LinearAlgebra.Matrix.Defs

/-!
# Rows, buffers and matrices

The same entries stand in a list of rows, in a row-major buffer and in a matrix. Each is read here
by row and column, and what the elimination of a square array returns is told by its packed rows.
-/

namespace DenseBench

namespace NDArray

variable {α : Type}

theorem squareDim_eq_ok_iff {a : NDArray α} {n : Nat} :
    a.squareDim = .ok n ↔ a.shape = [n, n] := by
  constructor
  · intro h
    unfold squareDim at h
    split at h
    · rename_i rows columns hshape
      split at h
      · rename_i hsquare
        cases h
        rw [hshape, hsquare]
      · cases h
    · cases h
  · intro hshape
    simp [squareDim, hshape]

theorem squareDim_of_not_square {a : NDArray α} (h : ∀ n, a.shape ≠ [n, n]) :
    a.squareDim = .error (.notSquare a.shape) := by
  unfold squareDim
  split
  · next rows columns hshape =>
    rw [if_neg]
    rintro rfl
    exact h rows hshape
  · rfl

theorem offset_lt_mul {rows columns row column : Nat} (hrow : row < rows)
    (hcolumn : column < columns) : offset columns row column < rows * columns := by
  calc
    offset columns row column < row * columns + columns := Nat.add_lt_add_left hcolumn _
    _ = (row + 1) * columns := (Nat.succ_mul _ _).symm
    _ ≤ rows * columns := Nat.mul_le_mul_right columns hrow

theorem offset_lt {n : Nat} (i j : Fin n) : offset n i j < n * n :=
  offset_lt_mul i.isLt j.isLt

variable [Arith α]

/-- The entries of an array with `n` rows and columns; zeros if there is no such entry. -/
def matrix (a : NDArray α) (n : Nat) : Matrix (Fin n) (Fin n) α :=
  fun i j => (a.get2? i j).getD Arith.zero

theorem matrix_apply {a : NDArray α} {n : Nat} (hshape : a.shape = [n, n])
    (hfits : n * n < wordLimit) (i j : Fin n) :
    a.matrix n i j = a.data.getD (offset n i j) Arith.zero := by
  have hlt : offset n i j < wordLimit := (offset_lt i j).trans hfits
  simp [matrix, get2?, hshape, Nat.mod_eq_of_lt hlt]

end NDArray

namespace Elimination

open NDArray

variable {α : Type} {n : Nat}

theorem divNat_offset (i j : Fin n) : Fin.divNat (m := n) ⟨offset n i j, offset_lt i j⟩ = i := by
  apply Fin.ext
  have hdiv : (i.val * n + j) / n = i := by
    rw [Nat.mul_comm, Nat.mul_add_div (Nat.zero_lt_of_lt j.isLt), Nat.div_eq_of_lt j.isLt,
      Nat.add_zero]
  exact hdiv

theorem modNat_offset (i j : Fin n) : Fin.modNat (m := n) ⟨offset n i j, offset_lt i j⟩ = j := by
  apply Fin.ext
  have hmod : (i.val * n + j) % n = j := by
    rw [Nat.mul_comm, Nat.mul_add_mod, Nat.mod_eq_of_lt j.isLt]
  exact hmod

theorem toList_bufferOf (entry : Fin n → Fin n → α) :
    (bufferOf n entry).toList = List.ofFn fun p : Fin (n * n) => entry p.divNat p.modNat := by
  rw [List.ofFn_mul]
  simp only [bufferOf, Array.toList_flatten, Array.toList_ofFn, List.map_ofFn]
  congr
  funext i
  simp only [Function.comp_apply, Array.toList_ofFn]
  congr
  funext j
  exact (congrArg₂ entry (divNat_offset i j) (modNat_offset i j)).symm

@[simp] theorem size_bufferOf (entry : Fin n → Fin n → α) : (bufferOf n entry).size = n * n := by
  rw [← Array.length_toList, toList_bufferOf, List.length_ofFn]

theorem getElem?_bufferOf (entry : Fin n → Fin n → α) (i j : Fin n) :
    (bufferOf n entry)[offset n i j]? = some (entry i j) := by
  rw [← Array.getElem?_toList, toList_bufferOf, List.getElem?_ofFn, dif_pos (offset_lt i j)]
  exact congrArg some (congrArg₂ entry (divNat_offset i j) (modNat_offset i j))

theorem map_bufferOf {β : Type} (f : α → β) (entry : Fin n → Fin n → α) :
    (bufferOf n entry).map f = bufferOf n fun i j => f (entry i j) := by
  apply Array.toList_inj.mp
  rw [Array.toList_map, toList_bufferOf, toList_bufferOf, List.map_ofFn]
  rfl

variable [Arith α]

/-- The entry of a row and a column; zero where there is none. -/
def cell (rows : List (Vector α n)) (i j : Nat) : α :=
  (rows[i]?.bind fun row => row[j]?).getD Arith.zero

@[simp] theorem cell_cons_zero (row : Vector α n) (rows : List (Vector α n)) {j : Nat}
    (hj : j < n) : cell (row :: rows) 0 j = row[j] := by
  simp [cell, hj]

@[simp] theorem cell_cons_succ (row : Vector α n) (rows : List (Vector α n)) (i j : Nat) :
    cell (row :: rows) (i + 1) j = cell rows i j := by
  simp [cell]

theorem cell_map_eliminateRow {k : Nat} (hk : k < n) (pivot : Vector α n)
    {rows : List (Vector α n)} {i j : Nat} (hi : i < rows.length) (hj : j < n) :
    cell (rows.map (eliminateRow k hk pivot)) i j =
      if j < k then cell rows i j
      else if j = k then Arith.div (cell rows i k) pivot[k]
      else Arith.sub (cell rows i j) (Arith.mul (Arith.div (cell rows i k) pivot[k]) pivot[j]) := by
  simp [cell, hi, hj, hk, eliminateRow]

theorem cell_rowsOf (data : Array α) (i j : Fin n) :
    cell (rowsOf n data) i j = data.getD (offset n i j) Arith.zero := by
  simp [cell, rowsOf]

theorem cell_toList (packed : Vector (Vector α n) n) (i j : Fin n) :
    cell packed.toList i j = (packed.get i).get j := by
  simp [cell]
  rfl

end Elimination

end DenseBench
