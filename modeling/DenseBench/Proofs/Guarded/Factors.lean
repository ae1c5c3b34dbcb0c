import DenseBench.Proofs.Guarded.Elimination

/-!
# Guarded factors

The packed buffer is copied entry by entry into two buffers of zeros. What they hold on the way is
what both factors hold in the entries reached so far.
-/

namespace DenseBench.Guarded

open NDArray Elimination

theorem offset_div_mod (n p : Nat) : offset n (p / n) (p % n) = p := by
  rw [offset, Nat.mul_comm, Nat.div_add_mod]

variable {α : Type} {n : Nat}

theorem write?_bufferOf (entry : Fin n → Fin n → α) (i j : Fin n) (x : α) :
    write? (bufferOf n entry).toList (offset n i j) x =
      some (bufferOf n fun r c => if r = i ∧ c = j then x else entry r c).toList := by
  have hplace : offset n i j < (bufferOf n entry).toList.length := by
    simpa using offset_lt i j
  rw [write?, if_pos hplace, toList_bufferOf, toList_bufferOf, Option.some.injEq]
  apply List.ext_getElem
  · simp
  · intro p hp hp'
    rw [List.getElem_set, List.getElem_ofFn, List.getElem_ofFn]
    by_cases hhere : offset n i j = p
    · subst hhere
      rw [if_pos rfl, divNat_offset, modNat_offset, if_pos ⟨rfl, rfl⟩]
    · rw [if_neg hhere, if_neg]
      rintro ⟨hrow, hcolumn⟩
      have hdiv : p / n = i := congrArg Fin.val hrow
      have hmod : p % n = j := congrArg Fin.val hcolumn
      apply hhere
      rw [← hdiv, ← hmod, offset_div_mod]

theorem replicate_eq_bufferOf (x : α) :
    List.replicate (n * n) x = (bufferOf n fun _ _ => x).toList := by
  rw [toList_bufferOf, List.ofFn_const]

theorem toList_eq_ofFn {β : Type} (xs : Vector β n) : xs.toList = List.ofFn xs.get := by
  apply List.ext_getElem
  · simp
  · intro i hi hi'
    simp
    rfl

theorem flatMap_ofFn_toList (rows : Fin n → Vector α n) :
    (List.ofFn rows).flatMap Vector.toList = (bufferOf n fun i => (rows i).get).toList := by
  rw [List.flatMap_def, List.map_ofFn]
  simp [bufferOf, Function.comp_def, toList_eq_ofFn]

def entryOf (packed : Vector (Vector α n) n) (r c : Fin n) : α :=
  (packed.get r).get c

theorem flatMap_toList_eq_bufferOf (packed : Vector (Vector α n) n) :
    packed.toList.flatMap Vector.toList = (bufferOf n (entryOf packed)).toList := by
  rw [toList_eq_ofFn packed, flatMap_ofFn_toList]
  rfl

theorem flatMap_rowsOf [Arith α] {data : Array α} (h : data.size = n * n) :
    (rowsOf n data).flatMap Vector.toList = data.toList := by
  rw [rowsOf, flatMap_ofFn_toList, toList_bufferOf]
  apply List.ext_getElem
  · simp [h]
  · intro p hp hp'
    have hlt : p < data.size := by simpa using hp'
    have hentry (i j : Fin n) :
        (Vector.ofFn fun j : Fin n => data.getD (offset n i j) Arith.zero).get j =
          data.getD (offset n i j) Arith.zero :=
      Vector.getElem_ofFn ..
    rw [List.getElem_ofFn, hentry]
    simp [offset_div_mod, hlt]

variable [Scalar α]

/-- Copies the entries of row `i` in the columns before the given one. -/
def splitEntries (n : Nat) (packed : List α) (i : Nat) :
    Nat → List α × List α → Option (List α × List α)
  | 0, factors => some factors
  | j + 1, factors => do
    let (lower, upper) ← splitEntries n packed i j factors
    let place ← offset? n i j
    let x ← packed[place]?
    if j < i then pure (← write? lower place x, upper)
    else pure (lower, ← write? upper place x)

/-- Copies the rows before the given one, and puts ones on the diagonal of the first factor. -/
def splitRows (n : Nat) (packed : List α) : Nat → Option (List α × List α)
  | 0 => do
    let count ← multiply? n n
    pure (List.replicate count Arith.zero, List.replicate count Arith.zero)
  | i + 1 => do
    let (lower, upper) ← splitEntries n packed i n (← splitRows n packed i)
    pure (← write? lower (← offset? n i i) Arith.one, upper)

def lu (a : NDArray α) : Option (Except Error (NDArray α × NDArray α)) :=
  match a.squareDim with
  | .error e => some (.error e)
  | .ok n => do
    match ← reduceColumns n (List.range n) a.data.toList with
    | .error e => pure (.error e)
    | .ok packed =>
      let (lower, upper) ← splitRows n packed n
      match ofData [n, n] (Engine.factorType a.dtype) lower.toArray,
        ofData [n, n] (Engine.factorType a.dtype) upper.toArray with
      | .ok lower, .ok upper => pure (.ok (lower, upper))
      | .error e, _ => pure (.error e)
      | _, .error e => pure (.error e)

/-- The entries of the first factor in the rows before `i` and in row `i` before column `j`; a row
gets its one last. -/
def lowerSoFar (packed : Vector (Vector α n) n) (i j : Nat) (r c : Fin n) : α :=
  if c.val < r ∧ (r.val < i ∨ r.val = i ∧ c.val < j) then entryOf packed r c
  else if c.val = r ∧ r.val < i then Arith.one
  else Arith.zero

def upperSoFar (packed : Vector (Vector α n) n) (i j : Nat) (r c : Fin n) : α :=
  if r.val ≤ c ∧ (r.val < i ∨ r.val = i ∧ c.val < j) then entryOf packed r c else Arith.zero

def factorsSoFar (packed : Vector (Vector α n) n) (i j : Nat) : List α × List α :=
  ((bufferOf n (lowerSoFar packed i j)).toList, (bufferOf n (upperSoFar packed i j)).toList)

theorem reached_succ {i j r c : Nat} (h : ¬(r = i ∧ c = j)) :
    (r < i ∨ r = i ∧ c < j + 1) ↔ r < i ∨ r = i ∧ c < j := by
  omega

theorem reached_next {i r c : Nat} (hc : c < n) :
    (r < i + 1 ∨ r = i + 1 ∧ c < 0) ↔ r < i ∨ r = i ∧ c < n := by
  omega

theorem lowerSoFar_succ {packed : Vector (Vector α n) n} {i j : Fin n} (h : j < i) :
    lowerSoFar packed i (j + 1) =
      fun r c => if r = i ∧ c = j then entryOf packed i j else lowerSoFar packed i j r c := by
  funext r c
  by_cases hhere : r = i ∧ c = j
  · obtain ⟨rfl, rfl⟩ := hhere
    rw [if_pos ⟨rfl, rfl⟩, lowerSoFar, if_pos ⟨h, by omega⟩]
  · rw [if_neg hhere]
    simp only [Fin.ext_iff] at hhere
    simp only [lowerSoFar, reached_succ hhere]

theorem lowerSoFar_of_le {packed : Vector (Vector α n) n} {i j : Nat} (h : i ≤ j) :
    lowerSoFar packed i (j + 1) = lowerSoFar packed i j := by
  funext r c
  have hreached : (c.val < r ∧ (r.val < i ∨ r.val = i ∧ c.val < j + 1)) ↔
      c.val < r ∧ (r.val < i ∨ r.val = i ∧ c.val < j) := by
    apply and_congr_right
    intro hcr
    exact reached_succ (by omega)
  simp only [lowerSoFar, hreached]

theorem upperSoFar_succ {packed : Vector (Vector α n) n} {i j : Fin n} (h : i ≤ j) :
    upperSoFar packed i (j + 1) =
      fun r c => if r = i ∧ c = j then entryOf packed i j else upperSoFar packed i j r c := by
  funext r c
  by_cases hhere : r = i ∧ c = j
  · obtain ⟨rfl, rfl⟩ := hhere
    rw [if_pos ⟨rfl, rfl⟩, upperSoFar, if_pos ⟨h, by omega⟩]
  · rw [if_neg hhere]
    simp only [Fin.ext_iff] at hhere
    simp only [upperSoFar, reached_succ hhere]

theorem upperSoFar_of_lt {packed : Vector (Vector α n) n} {i j : Nat} (h : j < i) :
    upperSoFar packed i (j + 1) = upperSoFar packed i j := by
  funext r c
  have hreached : (r.val ≤ c ∧ (r.val < i ∨ r.val = i ∧ c.val < j + 1)) ↔
      r.val ≤ c ∧ (r.val < i ∨ r.val = i ∧ c.val < j) := by
    apply and_congr_right
    intro hrc
    exact reached_succ (by omega)
  simp only [upperSoFar, hreached]

theorem splitEntries_eq (hfits : n * n < wordLimit) (packed : Vector (Vector α n) n) (i : Fin n)
    {j : Nat} (hj : j ≤ n) :
    splitEntries n (bufferOf n (entryOf packed)).toList i j (factorsSoFar packed i 0) =
      some (factorsSoFar packed i j) := by
  induction j with
  | zero => rfl
  | succ j ih =>
    obtain ⟨j, rfl⟩ : ∃ c : Fin n, j = c := ⟨⟨j, hj⟩, rfl⟩
    have hword : offset n i j < wordLimit := (offset_lt i j).trans hfits
    have hentry : (bufferOf n (entryOf packed)).toList[offset n i j]? =
        some (entryOf packed i j) := by
      rw [Array.getElem?_toList, getElem?_bufferOf]
    rw [splitEntries, ih (Nat.le_of_succ_le hj), offset?_eq_some hword]
    simp only [Option.bind_eq_bind, Option.bind_some, factorsSoFar, hentry, write?_bufferOf]
    split
    · rename_i hlt
      rw [lowerSoFar_succ hlt, upperSoFar_of_lt hlt]
      rfl
    · rename_i hle
      rw [upperSoFar_succ (Nat.le_of_not_lt hle), lowerSoFar_of_le (Nat.le_of_not_lt hle)]
      rfl

theorem factorsSoFar_zero (packed : Vector (Vector α n) n) :
    factorsSoFar packed 0 0 =
      (List.replicate (n * n) Arith.zero, List.replicate (n * n) Arith.zero) := by
  have hlower : lowerSoFar packed 0 0 = fun _ _ => Arith.zero := by
    funext r c
    simp [lowerSoFar]
  have hupper : upperSoFar packed 0 0 = fun _ _ => Arith.zero := by
    funext r c
    simp [upperSoFar]
  rw [factorsSoFar, hlower, hupper, replicate_eq_bufferOf]

theorem lowerSoFar_next (packed : Vector (Vector α n) n) (i : Fin n) :
    lowerSoFar packed (i + 1) 0 =
      fun r c => if r = i ∧ c = i then Arith.one else lowerSoFar packed i n r c := by
  funext r c
  by_cases hhere : r = i ∧ c = i
  · obtain ⟨rfl, rfl⟩ := hhere
    rw [if_pos ⟨rfl, rfl⟩, lowerSoFar, if_neg (by omega), if_pos ⟨rfl, by omega⟩]
  · rw [if_neg hhere]
    simp only [Fin.ext_iff] at hhere
    have hdiagonal : (c.val = r ∧ r.val < i + 1) ↔ c.val = r ∧ r.val < i := by
      omega
    simp only [lowerSoFar, reached_next c.isLt, hdiagonal]

theorem upperSoFar_next (packed : Vector (Vector α n) n) (i : Nat) :
    upperSoFar packed (i + 1) 0 = upperSoFar packed i n := by
  funext r c
  simp only [upperSoFar, reached_next c.isLt]

theorem splitRows_eq (hfits : n * n < wordLimit) (packed : Vector (Vector α n) n) {i : Nat}
    (hi : i ≤ n) :
    splitRows n (bufferOf n (entryOf packed)).toList i = some (factorsSoFar packed i 0) := by
  induction i with
  | zero =>
    rw [splitRows, multiply?_eq_some hfits, factorsSoFar_zero]
    rfl
  | succ i ih =>
    obtain ⟨i, rfl⟩ : ∃ r : Fin n, i = r := ⟨⟨i, hi⟩, rfl⟩
    have hword : offset n i i < wordLimit := (offset_lt i i).trans hfits
    rw [splitRows, ih (Nat.le_of_succ_le hi)]
    simp only [Option.bind_eq_bind, Option.bind_some]
    rw [splitEntries_eq hfits packed i le_rfl, offset?_eq_some hword]
    simp only [Option.bind_some, factorsSoFar, write?_bufferOf, lowerSoFar_next, upperSoFar_next]
    rfl

theorem factorsSoFar_all (packed : Vector (Vector α n) n) :
    factorsSoFar packed n 0 =
      ((bufferOf n (lowerEntry packed)).toList, (bufferOf n (upperEntry packed)).toList) := by
  have hlower : lowerSoFar packed n 0 = lowerEntry packed := by
    funext r c
    simp [lowerSoFar, lowerEntry, Fin.ext_iff]
    rfl
  have hupper : upperSoFar packed n 0 = upperEntry packed := by
    funext r c
    by_cases hbelow : c < r
    · simp [upperSoFar, upperEntry, hbelow]
    · simp [upperSoFar, upperEntry, hbelow, Fin.not_lt.mp hbelow]
      rfl
  rw [factorsSoFar, hlower, hupper]

/-- On a buffer of the size its shape says there are no faults. -/
theorem lu_eq (engine : Engine) {a : NDArray α} (h : elementCount a.shape = .ok a.data.size) :
    lu a = some (engine.lu a) := by
  unfold lu
  cases hdim : a.squareDim with
  | error e => rw [Engine.lu, hdim]
  | ok n =>
    have hshape := squareDim_eq_ok_iff.mp hdim
    have hsize : a.data.size = n * n := by simpa [hshape] using eq_prod_of_elementCount h
    have hfits : n * n < wordLimit := hsize ▸ lt_wordLimit_of_elementCount h
    have hrange : List.range n = List.range' 0 (rowsOf n a.data).length := by
      rw [List.range_eq_range', rowsOf, List.length_ofFn]
    dsimp only
    rw [hrange, ← flatMap_rowsOf hsize]
    rcases Engine.lu_square engine hshape hfits with ⟨packed, hpacks, hok⟩ | ⟨i, hstops, herror⟩
    · have hreduced := reduceColumns_of_packs hfits hpacks (List.length_nil (α := Vector α n))
      simp only [List.nil_append] at hreduced
      rw [hreduced, flatMap_toList_eq_bufferOf]
      simp only [Option.bind_eq_bind, Option.bind_some]
      rw [splitRows_eq hfits packed le_rfl, factorsSoFar_all]
      simp only [Option.bind_some, Array.toArray_toList, ofData_bufferOf hfits, hok]
      rfl
    · have hreduced := reduceColumns_of_stops hfits hstops (List.length_nil (α := Vector α n))
      simp only [List.nil_append] at hreduced
      rw [hreduced, herror]
      rfl

end DenseBench.Guarded
