import DenseBench.Proofs.Guarded.Buffer

/-!
# Guarded elimination

Elimination in place on one row-major buffer: each step cuts the buffer below the pivot row and
changes the rest of it row by row, and the packed buffer is copied into two. The buffer holds the
rows that are done and those that are not, so each step does on it what the recursion over rows
does.
-/

namespace DenseBench.Guarded

open NDArray Elimination

variable {α : Type}

/-- The parts of a buffer before a place and from it on. -/
def cut? (buffer : List α) (place : Nat) : Option (List α × List α) :=
  if place ≤ buffer.length then some (buffer.splitAt place) else none

/-- The buffer in pieces of `n` elements; only the last may be shorter. -/
def pieces (n : Nat) (hn : 0 < n) (buffer : List α) : List (List α) :=
  match buffer with
  | [] => []
  | x :: rest => (x :: rest).take n :: pieces n hn ((x :: rest).drop n)
termination_by buffer.length
decreasing_by
  simp
  omega

/-- There are no pieces without elements. -/
def pieces? (n : Nat) (buffer : List α) : Option (List (List α)) :=
  if hn : 0 < n then some (pieces n hn buffer) else none

def write? (buffer : List α) (place : Nat) (x : α) : Option (List α) :=
  if place < buffer.length then some (buffer.set place x) else none

section Steps

variable [Arith α]

/-- Subtracts a multiple of the second buffer from the first, as far as both go. -/
def subtractMultiple (factor : α) : List α → List α → List α
  | x :: xs, p :: ps => Arith.sub x (Arith.mul factor p) :: subtractMultiple factor xs ps
  | xs, _ => xs

def eliminateRow (k : Nat) (pivot row : List α) : Option (List α) := do
  let factor := Arith.div (← row[k]?) (← pivot[k]?)
  let (before, after) ← cut? (← write? row k factor) (k + 1)
  let (_, multiplied) ← cut? pivot (k + 1)
  pure (before ++ subtractMultiple factor after multiplied)

def reduceColumn (n k : Nat) (buffer : List α) : Option (Except Error (List α)) := do
  let (head, tail) ← cut? buffer (← multiply? (k + 1) n)
  let (_, pivot) ← cut? head (← multiply? k n)
  let entry ← pivot[k]?
  if Arith.isZero entry && !tail.isEmpty then pure (.error (.singularPivot k))
  else
    let rows ← (← pieces? n tail).mapM (eliminateRow k pivot)
    pure (.ok (head ++ rows.flatten))

/-- The given steps in turn, up to the first error. -/
def reduceColumns (n : Nat) : List Nat → List α → Option (Except Error (List α))
  | [], buffer => some (.ok buffer)
  | k :: steps, buffer => do
    match ← reduceColumn n k buffer with
    | .ok buffer => reduceColumns n steps buffer
    | .error e => pure (.error e)

end Steps

section Cutting

theorem cut?_append (before after : List α) {place : Nat} (h : before.length = place) :
    cut? (before ++ after) place = some (before, after) := by
  subst h
  simp [cut?]

theorem pieces_flatMap_toList {n : Nat} (hn : 0 < n) (rows : List (Vector α n)) :
    pieces n hn (rows.flatMap Vector.toList) = rows.map Vector.toList := by
  induction rows with
  | nil =>
    rw [List.flatMap_nil, pieces]
    rfl
  | cons row rows ih =>
    have hrow : row.toList.length = n := Vector.length_toList
    obtain ⟨x, rest, hcons⟩ : ∃ x rest, row.toList = x :: rest :=
      List.exists_cons_of_length_pos (hrow.symm ▸ hn)
    have hcut (after : List α) :
        pieces n hn (row.toList ++ after) = row.toList :: pieces n hn after := by
      rw [hcons, List.cons_append, pieces, ← List.cons_append, ← hcons, List.take_left' hrow,
        List.drop_left' hrow]
    rw [List.flatMap_cons, hcut, ih, List.map_cons]

theorem length_flatMap_toList {n : Nat} (rows : List (Vector α n)) :
    (rows.flatMap Vector.toList).length = rows.length * n := by
  induction rows with
  | nil => simp
  | cons row rows ih =>
    rw [List.flatMap_cons, List.length_append, Vector.length_toList, ih, List.length_cons,
      Nat.succ_mul, Nat.add_comm]

theorem isEmpty_flatMap_toList {n : Nat} (hn : 0 < n) (rows : List (Vector α n)) :
    (rows.flatMap Vector.toList).isEmpty = rows.isEmpty := by
  cases rows with
  | nil => rfl
  | cons row rows =>
    have hne : row.toList ≠ [] := List.ne_nil_of_length_pos (by simpa using hn)
    simp [hne]

theorem multiply?_rows {n rows : Nat} (hfits : n * n < wordLimit) (hrows : rows ≤ n) :
    multiply? rows n = some (rows * n) :=
  multiply?_eq_some ((Nat.mul_le_mul_right n hrows).trans_lt hfits)

/-- A cut between two rows. -/
theorem cut?_rows {n r : Nat} (above below : List (Vector α n)) (h : above.length = r) :
    cut? ((above ++ below).flatMap Vector.toList) (r * n) =
      some (above.flatMap Vector.toList, below.flatMap Vector.toList) := by
  rw [List.flatMap_append]
  exact cut?_append _ _ (by rw [length_flatMap_toList, h])

end Cutting

variable [Arith α] {n : Nat}

theorem subtractMultiple_eq_zipWith (factor : α) {xs ps : List α} (h : xs.length = ps.length) :
    subtractMultiple factor xs ps =
      List.zipWith (fun x p => Arith.sub x (Arith.mul factor p)) xs ps := by
  induction xs generalizing ps with
  | nil => rfl
  | cons x xs ih =>
    cases ps with
    | nil => cases h
    | cons p ps =>
      rw [subtractMultiple, ih (by simpa using h)]
      rfl

theorem eliminateRow_eq {k : Nat} (hk : k < n) (pivot row : Vector α n) :
    eliminateRow k pivot.toList row.toList =
      some (Elimination.eliminateRow k hk pivot row).toList := by
  have hrow : row.toList[k]? = some row[k] := by simp [hk]
  have hpivot : pivot.toList[k]? = some pivot[k] := by simp [hk]
  have hwrite (x : α) : write? row.toList k x = some (row.toList.set k x) := by simp [write?, hk]
  have hcut (buffer : List α) (h : buffer.length = n) :
      cut? buffer (k + 1) = some (buffer.take (k + 1), buffer.drop (k + 1)) := by
    rw [cut?, if_pos (h ▸ hk), List.splitAt_eq]
  simp only [eliminateRow, hrow, hpivot, hwrite, Option.bind_eq_bind, Option.bind_some]
  rw [hcut _ (by simp), hcut _ (by simp)]
  simp only [Option.bind_some, Option.pure_def, Option.some.injEq]
  rw [subtractMultiple_eq_zipWith _ (by simp)]
  apply List.ext_getElem
  · simp
    omega
  · intro j hj hj'
    have hn : j < n := by simpa using hj'
    simp only [Elimination.eliminateRow, Vector.getElem_toList, Vector.getElem_ofFn]
    rcases Nat.lt_trichotomy j k with hlt | rfl | hgt
    · rw [List.getElem_append_left (by simp; omega)]
      simp [hlt, hlt.ne']
    · rw [List.getElem_append_left (by simp; omega)]
      simp
    · have hplace : k + 1 + (j - min (k + 1) n) = j := by omega
      rw [List.getElem_append_right (by simp; omega)]
      simp [hplace, hgt.not_gt, hgt.ne, hgt.ne']

/-- One step on a buffer that holds `k` finished rows, the pivot row and the rows below it. -/
theorem reduceColumn_eq {k : Nat} (hk : k < n) (hfits : n * n < wordLimit)
    {done : List (Vector α n)} (hdone : done.length = k) (pivot : Vector α n)
    (rest : List (Vector α n)) :
    reduceColumn n k ((done ++ pivot :: rest).flatMap Vector.toList) =
      some (if Arith.isZero pivot[k] && !rest.isEmpty then .error (.singularPivot k)
        else .ok ((done ++ pivot ::
          rest.map (Elimination.eliminateRow k hk pivot)).flatMap Vector.toList)) := by
  have hn : 0 < n := Nat.zero_lt_of_lt hk
  have hhead : (done ++ [pivot]).length = k + 1 := by rw [List.length_append, hdone]; rfl
  have hentry : pivot.toList[k]? = some pivot[k] := by simp [hk]
  have hrows : (rest.map Vector.toList).mapM (eliminateRow k pivot.toList) =
      some ((rest.map (Elimination.eliminateRow k hk pivot)).map Vector.toList) := by
    rw [List.mapM_map, List.map_map]
    exact mapM_eq_some fun row _ => eliminateRow_eq hk pivot row
  rw [reduceColumn, multiply?_rows hfits hk, multiply?_rows hfits hk.le, List.append_cons]
  simp only [Option.bind_eq_bind, Option.bind_some]
  rw [cut?_rows _ _ hhead]
  simp only [Option.bind_some]
  rw [cut?_rows _ _ hdone]
  simp only [Option.bind_some, List.flatMap_singleton, hentry, isEmpty_flatMap_toList hn, pieces?,
    dif_pos hn, pieces_flatMap_toList, hrows]
  split
  · rfl
  · simp [List.flatMap_def]

/-- A step that goes on leaves one more finished row, and then the other steps follow. -/
theorem reduceColumns_cons {k : Nat} (hk : k < n) (hfits : n * n < wordLimit)
    {done : List (Vector α n)} (hdone : done.length = k) {pivot : Vector α n}
    {rest : List (Vector α n)} (hpivot : rest ≠ [] → Arith.isZero pivot[k] = false) :
    reduceColumns n (List.range' k (pivot :: rest).length)
        ((done ++ pivot :: rest).flatMap Vector.toList) =
      reduceColumns n
        (List.range' (k + 1) (rest.map (Elimination.eliminateRow k hk pivot)).length)
        ((done ++ [pivot] ++
          rest.map (Elimination.eliminateRow k hk pivot)).flatMap Vector.toList) := by
  have hgoes : ¬ (Arith.isZero pivot[k] && !rest.isEmpty) = true := by
    cases rest with
    | nil => simp
    | cons row rest => simp [hpivot (List.cons_ne_nil row rest)]
  rw [List.length_cons, List.range'_succ, reduceColumns, reduceColumn_eq hk hfits hdone,
    if_neg hgoes]
  simp

theorem reduceColumns_of_packs (hfits : n * n < wordLimit) {k : Nat}
    {rows out : List (Vector α n)} (h : Packs k rows out) {done : List (Vector α n)}
    (hdone : done.length = k) :
    reduceColumns n (List.range' k rows.length) ((done ++ rows).flatMap Vector.toList) =
      some (.ok ((done ++ out).flatMap Vector.toList)) := by
  induction h generalizing done with
  | nil k => rfl
  | cons hk hpivot hbelow ih =>
    rw [reduceColumns_cons hk hfits hdone hpivot, ih (by simp [hdone]), List.append_assoc]
    rfl

theorem reduceColumns_of_stops (hfits : n * n < wordLimit) {k i : Nat}
    {rows : List (Vector α n)} (h : Stops k rows i) {done : List (Vector α n)}
    (hdone : done.length = k) :
    reduceColumns n (List.range' k rows.length) ((done ++ rows).flatMap Vector.toList) =
      some (.error (.singularPivot i)) := by
  induction h generalizing done with
  | here hk hrest hzero =>
    rw [List.length_cons, List.range'_succ, reduceColumns, reduceColumn_eq hk hfits hdone,
      if_pos (by simpa [hzero] using hrest)]
    rfl
  | later hk hpivot hbelow ih =>
    rw [reduceColumns_cons hk hfits hdone fun _ => hpivot, ih (by simp [hdone])]

end DenseBench.Guarded
