import DenseBench.Proofs.Schedule

/-!
# Steps of the elimination

The relation between rows and the packed rows that elimination turns them into, one constructor for
each step, and the row at which it stops when it cannot go on. The recursion that carries out the
steps is related to both, so that what holds of every elimination is proved by induction on them.
-/

namespace DenseBench.Elimination

variable {α : Type} [Arith α] {n : Nat}

/-- Elimination from column `k` on packs the rows into the rows after them. -/
inductive Packs : Nat → List (Vector α n) → List (Vector α n) → Prop
  | nil (k : Nat) : Packs k [] []
  | cons {k : Nat} {pivot : Vector α n} {rest done : List (Vector α n)} (hk : k < n)
      (hpivot : rest ≠ [] → Arith.isZero pivot[k] = false)
      (hbelow : Packs (k + 1) (rest.map (eliminateRow k hk pivot)) done) :
      Packs k (pivot :: rest) (pivot :: done)

/-- Elimination from column `k` on meets a zero pivot in the row of the last index, and rows below
it. -/
inductive Stops : Nat → List (Vector α n) → Nat → Prop
  | here {k : Nat} {pivot : Vector α n} {rest : List (Vector α n)} (hk : k < n)
      (hrest : rest ≠ []) (hzero : Arith.isZero pivot[k] = true) : Stops k (pivot :: rest) k
  | later {k i : Nat} {pivot : Vector α n} {rest : List (Vector α n)} (hk : k < n)
      (hpivot : Arith.isZero pivot[k] = false)
      (hbelow : Stops (k + 1) (rest.map (eliminateRow k hk pivot)) i) : Stops k (pivot :: rest) i

theorem Stops.le {k i : Nat} {rows : List (Vector α n)} (h : Stops k rows i) : k ≤ i := by
  induction h with
  | here hk hrest hzero => exact le_rfl
  | later hk hpivot hbelow ih => exact Nat.le_of_succ_le ih

theorem Stops.lt {k i : Nat} {rows : List (Vector α n)} (h : Stops k rows i) :
    i + 1 < k + rows.length := by
  induction h with
  | here hk hrest hzero =>
    have := List.length_pos_iff.mpr hrest
    simp only [List.length_cons]
    omega
  | later hk hpivot hbelow ih =>
    simp only [List.length_map, List.length_cons] at ih ⊢
    omega

theorem Packs.eq {k : Nat} {rows done done' : List (Vector α n)} (h : Packs k rows done)
    (h' : Packs k rows done') : done = done' := by
  induction h generalizing done' with
  | nil k =>
    cases h'
    rfl
  | cons hk hpivot hbelow ih =>
    cases h' with
    | cons _ _ hbelow' => rw [ih hbelow']

theorem Packs.not_stops {k i : Nat} {rows done : List (Vector α n)} (h : Packs k rows done) :
    ¬ Stops k rows i := by
  induction h with
  | nil k => nofun
  | cons hk hpivot hbelow ih =>
    intro hstops
    cases hstops with
    | here _ hrest hzero => simp [hpivot hrest] at hzero
    | later _ _ hbelow' => exact ih hbelow'

theorem Stops.eq {k i i' : Nat} {rows : List (Vector α n)} (h : Stops k rows i)
    (h' : Stops k rows i') : i = i' := by
  induction h with
  | here hk hrest hzero =>
    cases h' with
    | here => rfl
    | later _ hpivot _ => simp [hzero] at hpivot
  | later hk hpivot hbelow ih =>
    cases h' with
    | here _ _ hzero => simp [hpivot] at hzero
    | later _ _ hbelow' => exact ih hbelow'

theorem reduceRows_downward (k : Nat) (rows : List (Vector α n)) (fits : k + rows.length = n) :
    (∃ out, reduceRows Sweep.downward k rows fits = .ok out ∧ Packs k rows out.1) ∨
      ∃ i, reduceRows Sweep.downward k rows fits = .error (.singularPivot i) ∧ Stops k rows i := by
  obtain ⟨len, hlen⟩ : ∃ len, rows.length = len := ⟨_, rfl⟩
  induction len generalizing k rows with
  | zero =>
    cases rows with
    | nil => exact .inl ⟨⟨[], rfl⟩, by rw [reduceRows], .nil k⟩
    | cons pivot rest => cases hlen
  | succ len ih =>
    cases rows with
    | nil => cases hlen
    | cons pivot rest =>
      have hk : k < n := by simp at fits; omega
      rw [reduceRows]
      by_cases hstop : (Arith.isZero pivot[k] && !rest.isEmpty) = true
      · rw [if_pos hstop]
        simp only [Bool.and_eq_true, Bool.not_eq_true', List.isEmpty_eq_false_iff] at hstop
        exact .inr ⟨k, rfl, .here hk hstop.2 hstop.1⟩
      · rw [if_neg hstop]
        simp only [Sweep.downward]
        rcases ih (k + 1) (rest.map (eliminateRow k hk pivot)) (by simp at fits ⊢; omega)
          (by simpa using hlen) with ⟨out, hout, hpacks⟩ | ⟨i, hi, hstops⟩
        · simp only [hout]
          refine .inl ⟨_, rfl, .cons hk ?_ hpacks⟩
          intro hrest
          simpa [hrest] using hstop
        · simp only [hi]
          refine .inr ⟨i, rfl, .later hk ?_ hstops⟩
          cases rest with
          | nil => cases hstops
          | cons row rest => simpa using hstop

end DenseBench.Elimination
