import DenseBench.Engine.Schedule
import DenseBench.NDArray

/-!
# Triangular factors by elimination

Elimination without exchange of rows. The rows still to be done shrink by one at each step: the
first of them is the pivot row, and each of the others keeps its multiplier in the place of the
entry that the multiplier removes. The finished rows hold both factors packed together.
-/

namespace DenseBench.Elimination

variable {α : Type} [Arith α] {n : Nat}

/-- The row after the entry of column `k` has been removed with the pivot row. -/
@[specialize]
def eliminateRow (k : Nat) (hk : k < n) (pivot row : Vector α n) : Vector α n :=
  let factor := Arith.div row[k] pivot[k]
  Vector.ofFn fun j =>
    if j.val < k then row[j]
    else if j.val = k then factor
    else Arith.sub row[j] (Arith.mul factor pivot[j])

/-- A way to change every row below the pivot row of a step. -/
abbrev Sweep (α : Type) (n : Nat) :=
  (step : Nat) → (Vector α n → Vector α n) → (rows : List (Vector α n)) →
    { out : List (Vector α n) // out.length = rows.length }

/-- One row after the other, from the top. -/
def Sweep.downward : Sweep α n :=
  fun _ change rows => ⟨rows.map change, List.length_map ..⟩

/-- The number of rows below which a pool leaves them to the calling thread. -/
def pooledRows : Nat := 64

/-- In the order a schedule gives for the step, unless there are only few rows. -/
def Sweep.scheduled (schedule : Schedule) : Sweep α n :=
  fun step change rows =>
    if pooledRows ≤ rows.length then
      let pieces : Vector (Vector α n) rows.length := ⟨rows.toArray, rfl⟩
      ⟨((schedule.order step rows.length).update change pieces).toList, by simp⟩
    else
      ⟨rows.map change, List.length_map ..⟩

/-- Carries out the steps from `k` on; the rows given are those from the `k`-th on. A zero pivot
is an error as soon as there are rows below it. -/
def reduceRows (sweep : Sweep α n) (k : Nat) (rows : List (Vector α n))
    (fits : k + rows.length = n) :
    Except Error { out : List (Vector α n) // out.length = rows.length } :=
  match rows with
  | [] => .ok ⟨[], rfl⟩
  | pivot :: rest =>
    have hk : k < n := by simp at fits; omega
    if Arith.isZero pivot[k] && !rest.isEmpty then
      .error (.singularPivot k)
    else
      let below := sweep k (eliminateRow k hk pivot) rest
      match reduceRows sweep (k + 1) below.1 (by have := below.2; simp at fits; omega) with
      | .ok done => .ok ⟨pivot :: done.1, by have := below.2; have := done.2; simp; omega⟩
      | .error e => .error e
termination_by rows.length
decreasing_by
  have := (sweep k (eliminateRow k hk pivot) rest).2
  simp
  omega

/-- The rows of the square matrix that a buffer holds in row-major order. -/
def rowsOf (n : Nat) (data : Array α) : List (Vector α n) :=
  List.ofFn fun i : Fin n => Vector.ofFn fun j => data.getD (NDArray.offset n i j) Arith.zero

/-- The row-major buffer of a matrix given entry by entry. -/
def bufferOf (n : Nat) (entry : Fin n → Fin n → α) : Array α :=
  (Array.ofFn fun i => Array.ofFn (entry i)).flatten

/-- The entries of the packed rows below the diagonal, ones on it and zeros above. -/
def lowerEntry (packed : Vector (Vector α n) n) (i j : Fin n) : α :=
  if j.val < i.val then packed[i][j] else if j = i then Arith.one else Arith.zero

/-- The entries of the packed rows on and above the diagonal, and zeros below. -/
def upperEntry (packed : Vector (Vector α n) n) (i j : Fin n) : α :=
  if j.val < i.val then Arith.zero else packed[i][j]

def packedFactors (sweep : Sweep α n) (data : Array α) : Except Error (Vector (Vector α n) n) :=
  match reduceRows sweep 0 (rowsOf n data) (by simp [rowsOf]) with
  | .ok rows => .ok ⟨rows.1.toArray, by simpa [rowsOf] using rows.2⟩
  | .error e => .error e

end DenseBench.Elimination
