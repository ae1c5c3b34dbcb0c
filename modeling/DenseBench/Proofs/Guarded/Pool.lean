import DenseBench.Proofs.Elimination.Factors
import DenseBench.Proofs.Guarded.Factors

/-!
# Elimination by a pool

The threads of a pool share one buffer. They eliminate the rows below a pivot row one at a time, in
an order of its own for each step, and each time read the pivot row and the row to be changed as the
buffer holds them by then. A row is changed only once and the pivot row not at all, so that after
every step the buffer is that of the rows done from top to bottom.
-/

namespace DenseBench

open NDArray Elimination

namespace Guarded

variable {α : Type} {n : Nat}

/-- The rows below the pivot row of a step, counted from it, in the order of their visits. -/
def visits (schedule : Schedule) (step count : Nat) : List Nat :=
  if pooledRows ≤ count then List.ofFn fun t => ((schedule.order step count).visit t).val
  else List.range count

section Steps

variable [Arith α]

/-- Eliminates one row with the pivot row `k`, both read from the buffer, which changes in place. -/
def eliminateAt (n k : Nat) (buffer : List α) (row : Nat) : Option (List α) := do
  let (above, rest) ← cut? buffer (← multiply? row n)
  let (old, below) ← cut? rest n
  let (_, fromPivot) ← cut? above (← multiply? k n)
  let (pivot, _) ← cut? fromPivot n
  let new ← eliminateRow k pivot old
  pure (above ++ (new ++ below))

def poolColumn (schedule : Schedule) (n k : Nat) (buffer : List α) :
    Option (Except Error (List α)) := do
  let (head, tail) ← cut? buffer (← multiply? (k + 1) n)
  let (_, pivot) ← cut? head (← multiply? k n)
  let entry ← pivot[k]?
  if Arith.isZero entry && !tail.isEmpty then pure (.error (.singularPivot k))
  else
    let below := (visits schedule k (n - (k + 1))).map (k + 1 + ·)
    pure (.ok (← below.foldlM (eliminateAt n k) buffer))

def poolColumns (schedule : Schedule) (n : Nat) :
    List Nat → List α → Option (Except Error (List α))
  | [], buffer => some (.ok buffer)
  | k :: steps, buffer => do
    match ← poolColumn schedule n k buffer with
    | .ok buffer => poolColumns schedule n steps buffer
    | .error e => pure (.error e)

end Steps

def pooledLu [Scalar α] (schedule : Schedule) (a : NDArray α) :
    Option (Except Error (NDArray α × NDArray α)) :=
  match a.squareDim with
  | .error e => some (.error e)
  | .ok n => do
    match ← poolColumns schedule n (List.range n) a.data.toList with
    | .error e => pure (.error e)
    | .ok packed =>
      let (lower, upper) ← splitRows n packed n
      match ofData [n, n] (Engine.factorType a.dtype) lower.toArray,
        ofData [n, n] (Engine.factorType a.dtype) upper.toArray with
      | .ok lower, .ok upper => pure (.ok (lower, upper))
      | .error e, _ => pure (.error e)
      | _, .error e => pure (.error e)

section Visits

variable (schedule : Schedule) (step count : Nat)

theorem nodup_visits : (visits schedule step count).Nodup := by
  unfold visits
  split
  · apply List.nodup_ofFn.mpr
    exact Fin.val_injective.comp (schedule.order step count).visit_injective
  · exact List.nodup_range

theorem mem_visits {p : Nat} : p ∈ visits schedule step count ↔ p < count := by
  unfold visits
  split
  · rw [List.mem_ofFn]
    constructor
    · rintro ⟨t, rfl⟩
      exact Fin.isLt _
    · intro hp
      obtain ⟨t, ht⟩ := (schedule.order step count).onto ⟨p, hp⟩
      exact ⟨t, congrArg Fin.val ht⟩
  · exact List.mem_range

end Visits

section Rows

variable {β : Type}

/-- After visits to different places those visited are changed, and no other place is. -/
theorem getElem?_foldl_modify (change : β → β) {places : List Nat} (hnodup : places.Nodup)
    (rows : List β) (i : Nat) :
    (places.foldl (fun rows p => rows.modify p change) rows)[i]? =
      if i ∈ places then rows[i]?.map change else rows[i]? := by
  induction places generalizing rows with
  | nil => simp
  | cons p places ih =>
    obtain ⟨hp, hplaces⟩ := List.nodup_cons.mp hnodup
    -- the place visited first is not among the later ones, so it keeps its change
    rw [List.foldl_cons, ih hplaces]
    by_cases hi : i = p
    · subst hi
      simp [hp]
    · simp [hi, Ne.symm hi]

theorem foldl_modify_visits (change : β → β) (schedule : Schedule) (step : Nat) (rows : List β) :
    (visits schedule step rows.length).foldl (fun rows p => rows.modify p change) rows =
      rows.map change := by
  apply List.ext_getElem?
  intro i
  rw [getElem?_foldl_modify change (nodup_visits schedule step rows.length), List.getElem?_map]
  by_cases hi : i < rows.length
  · rw [if_pos ((mem_visits schedule step rows.length).mpr hi)]
  · rw [if_neg (mt (mem_visits schedule step rows.length).mp hi),
      List.getElem?_eq_none (Nat.le_of_not_lt hi)]
    rfl

end Rows

section Columns

variable [Arith α]

/-- A row below the pivot row changes in its place, whatever has become of the other rows there. -/
theorem eliminateAt_eq {k : Nat} (hk : k < n) (hfits : n * n < wordLimit)
    {done : List (Vector α n)} (hdone : done.length = k) (pivot : Vector α n)
    {rest : List (Vector α n)} (hrest : k + 1 + rest.length = n) {p : Nat} (hp : p < rest.length) :
    eliminateAt n k ((done ++ pivot :: rest).flatMap Vector.toList) (k + 1 + p) =
      some ((done ++ pivot ::
        rest.modify p (Elimination.eliminateRow k hk pivot)).flatMap Vector.toList) := by
  obtain ⟨before, row, after, rfl, hbefore, hmodify⟩ :=
    List.exists_of_modify (Elimination.eliminateRow k hk pivot) hp
  have hplace : k + 1 + p ≤ n := by omega
  have habove : (done ++ pivot :: before).length = k + 1 + p := by
    rw [List.length_append, List.length_cons, hdone, hbefore]
    omega
  have hsplit (row : Vector α n) : done ++ pivot :: (before ++ row :: after) =
      (done ++ pivot :: before) ++ row :: after := by
    simp
  rw [hmodify, hsplit, hsplit, eliminateAt, multiply?_rows hfits hplace,
    multiply?_rows hfits hk.le]
  simp only [Option.bind_eq_bind, Option.bind_some]
  -- the pivot row is read from what lies above the row, which this update does not write
  rw [cut?_rows _ _ habove]
  simp only [Option.bind_some]
  rw [List.flatMap_cons, cut?_append _ _ Vector.length_toList, cut?_rows _ _ hdone]
  simp only [Option.bind_some]
  rw [List.flatMap_cons, cut?_append _ _ Vector.length_toList]
  simp [eliminateRow_eq hk]

theorem foldlM_eliminateAt {k : Nat} (hk : k < n) (hfits : n * n < wordLimit)
    {done : List (Vector α n)} (hdone : done.length = k) (pivot : Vector α n) {places : List Nat}
    {rest : List (Vector α n)} (hrest : k + 1 + rest.length = n)
    (hplaces : ∀ p ∈ places, p < rest.length) :
    (places.map (k + 1 + ·)).foldlM (eliminateAt n k)
        ((done ++ pivot :: rest).flatMap Vector.toList) =
      some ((done ++ pivot :: places.foldl
        (fun rows p => rows.modify p (Elimination.eliminateRow k hk pivot)) rest).flatMap
          Vector.toList) := by
  induction places generalizing rest with
  | nil => rfl
  | cons p places ih =>
    have hp : p < rest.length := hplaces p List.mem_cons_self
    rw [List.map_cons, List.foldlM_cons, eliminateAt_eq hk hfits hdone pivot hrest hp]
    apply ih
    · rwa [List.length_modify]
    · intro q hq
      rw [List.length_modify]
      exact hplaces q (List.mem_cons_of_mem p hq)

theorem poolColumn_eq (schedule : Schedule) {k : Nat} (hk : k < n) (hfits : n * n < wordLimit)
    {done : List (Vector α n)} (hdone : done.length = k) (pivot : Vector α n)
    {rest : List (Vector α n)} (hrest : k + 1 + rest.length = n) :
    poolColumn schedule n k ((done ++ pivot :: rest).flatMap Vector.toList) =
      some (if Arith.isZero pivot[k] && !rest.isEmpty then .error (.singularPivot k)
        else .ok ((done ++ pivot ::
          rest.map (Elimination.eliminateRow k hk pivot)).flatMap Vector.toList)) := by
  have hhead : (done ++ [pivot]).length = k + 1 := by rw [List.length_append, hdone]; rfl
  have hentry : pivot.toList[k]? = some pivot[k] := by simp [hk]
  have hcount : n - (k + 1) = rest.length := by omega
  have hrows := foldlM_eliminateAt hk hfits hdone pivot hrest
    fun p hp => (mem_visits schedule k rest.length).mp hp
  rw [foldl_modify_visits] at hrows
  rw [poolColumn, multiply?_rows hfits hk, multiply?_rows hfits hk.le, hcount]
  simp only [Option.bind_eq_bind, Option.bind_some, hrows]
  rw [List.append_cons, cut?_rows _ _ hhead]
  simp only [Option.bind_some]
  rw [cut?_rows _ _ hdone]
  simp only [Option.bind_some, List.flatMap_singleton, hentry,
    isEmpty_flatMap_toList (Nat.zero_lt_of_lt hk)]
  split <;> rfl

theorem poolColumns_eq_reduceColumns (schedule : Schedule) (hfits : n * n < wordLimit) {k : Nat}
    {done rows : List (Vector α n)} (hdone : done.length = k) (hrows : k + rows.length = n) :
    poolColumns schedule n (List.range' k rows.length) ((done ++ rows).flatMap Vector.toList) =
      reduceColumns n (List.range' k rows.length) ((done ++ rows).flatMap Vector.toList) := by
  obtain ⟨len, hlen⟩ : ∃ len, rows.length = len := ⟨_, rfl⟩
  rw [hlen]
  -- both steps leave the buffer of the rows that elimination by rows goes on with
  induction len generalizing k done rows with
  | zero => rfl
  | succ len ih =>
    cases rows with
    | nil => cases hlen
    | cons pivot rest =>
      simp only [List.length_cons, Nat.add_right_cancel_iff] at hrows hlen
      have hk : k < n := by omega
      rw [List.range'_succ, poolColumns, reduceColumns,
        poolColumn_eq schedule hk hfits hdone pivot (by omega), reduceColumn_eq hk hfits hdone]
      by_cases hstop : (Arith.isZero pivot[k] && !rest.isEmpty) = true
      · rw [if_pos hstop]
        rfl
      · rw [if_neg hstop]
        have hnext := @ih (k + 1) (done ++ [pivot])
          (rest.map (Elimination.eliminateRow k hk pivot)) (by simp [hdone]) (by simp; omega)
          (by simpa using hlen)
        simpa using hnext

end Columns

/-- On a buffer of the size its shape says, the pool and one thread give the same answer. -/
theorem pooledLu_eq_lu [Scalar α] (schedule : Schedule) {a : NDArray α}
    (h : elementCount a.shape = .ok a.data.size) : pooledLu schedule a = lu a := by
  unfold pooledLu lu
  cases hdim : a.squareDim with
  | error e => rfl
  | ok n =>
    have hsize : a.data.size = n * n := by
      simpa [squareDim_eq_ok_iff.mp hdim] using eq_prod_of_elementCount h
    have hfits : n * n < wordLimit := hsize ▸ lt_wordLimit_of_elementCount h
    have hrows : (rowsOf n a.data).length = n := List.length_ofFn
    have hcolumns := poolColumns_eq_reduceColumns schedule hfits
      (List.length_nil (α := Vector α n)) ((Nat.zero_add _).trans hrows)
    rw [List.nil_append, hrows, flatMap_rowsOf hsize, ← List.range_eq_range'] at hcolumns
    exact congrArg (· >>= _) hcolumns

end Guarded

namespace Engine

variable {α : Type} [Scalar α]

/-- Factors and faults are those of the reference engine in every schedule. This holds of the
rows, which no thread shares, and of the one buffer that all threads change in place. -/
theorem lu_parallel (schedule : Schedule) (a : NDArray α) :
    (parallel schedule).lu a = reference.lu a ∧
      (elementCount a.shape = .ok a.data.size →
        Guarded.pooledLu schedule a = some (reference.lu a)) := by
  constructor
  · exact lu_eq_reference (.parallel schedule) a
  · intro hcount
    rw [Guarded.pooledLu_eq_lu schedule hcount, Guarded.lu_eq reference hcount]

end Engine

namespace Guarded

/-- From the last row of each step to the first. -/
def backward : Schedule :=
  { Schedule.sequential with order := fun _ _ => ⟨Fin.rev, fun i => ⟨i.rev, Fin.rev_rev i⟩⟩ }

/-- The pool takes on the first step, in which all other rows become zero. -/
def ones : NDArray ℚ :=
  ⟨[65, 65], .float64, Array.replicate (65 * 65) 1⟩

theorem lu_parallel_ones :
    visits backward 0 64 = (List.range 64).reverse ∧
      elementCount ones.shape = .ok ones.data.size ∧
      pooledLu backward ones = some (.error (.singularPivot 1)) := by
  have hcount : elementCount ones.shape = .ok ones.data.size := by
    rw [ones, Array.size_replicate]
    decide
  have hfails : (Engine.reference.lu ones).map (fun _ => ()) = .error (.singularPivot 1) := by
    decide +kernel
  have hpooled := (Engine.lu_parallel backward ones).2 hcount
  refine ⟨by decide, hcount, ?_⟩
  cases hlu : Engine.reference.lu ones with
  | error e =>
    rw [hlu] at hfails hpooled
    cases hfails
    exact hpooled
  | ok factors =>
    rw [hlu] at hfails
    cases hfails

end Guarded

end DenseBench
