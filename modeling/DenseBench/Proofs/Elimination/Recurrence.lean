import DenseBench.Double
import DenseBench.Proofs.Elimination.Factors
import DenseBench.Proofs.Guarded.Factors

/-!
# Entries by recurrence

What elimination leaves in each place, told entry by entry: the entry of the matrix less the
products of what is left of it and above it, subtracted one after the other from the first on, and
below the diagonal divided by the pivot. No law of arithmetic is used, so that rounding operations
give just these values too. The recurrence has one solution.
-/

namespace DenseBench.Elimination

open NDArray
open Guarded (entryOf)

variable {α : Type} [Arith α] {n : Nat}

/-- `x` less the products of the first `m` entries of two rows, subtracted one after the other. -/
def subtractProducts (left above : Fin n → α) (x : α) : (m : Nat) → m ≤ n → α
  | 0, _ => x
  | m + 1, h =>
    Arith.sub (subtractProducts left above x m (Nat.le_of_succ_le h))
      (Arith.mul (left ⟨m, h⟩) (above ⟨m, h⟩))

/-- The recurrences that give each packed entry from those left of it and above it. -/
structure Recurs (A P : Matrix (Fin n) (Fin n) α) : Prop where
  upper (i j : Fin n) : i ≤ j →
    P i j = subtractProducts (P i) (fun m => P m j) (A i j) i i.isLt.le
  lower (i j : Fin n) : j < i →
    P i j = Arith.div (subtractProducts (P i) (fun m => P m j) (A i j) j j.isLt.le) (P j j)

theorem subtractProducts_congr {left left' above above' : Fin n → α} (x : α) {m : Nat} (hm : m ≤ n)
    (hleft : ∀ p : Fin n, p.val < m → left p = left' p)
    (habove : ∀ p : Fin n, p.val < m → above p = above' p) :
    subtractProducts left above x m hm = subtractProducts left' above' x m hm := by
  induction m with
  | zero => rfl
  | succ m ih =>
    rw [subtractProducts, subtractProducts, hleft ⟨m, hm⟩ (Nat.lt_succ_self m),
      habove ⟨m, hm⟩ (Nat.lt_succ_self m),
      ih (Nat.le_of_succ_le hm) (fun p hp => hleft p (Nat.lt_succ_of_lt hp))
        (fun p hp => habove p (Nat.lt_succ_of_lt hp))]

namespace Recurs

variable {A P Q : Matrix (Fin n) (Fin n) α}

/-- Row `k` from the diagonal on and column `k` below it depend on earlier ones only. -/
theorem step_eq (hP : Recurs A P) (hQ : Recurs A Q) (k : Fin n) :
    (∀ j, k ≤ j → P k j = Q k j) ∧ ∀ i, k < i → P i k = Q i k := by
  induction k using WellFoundedLT.induction with
  | ind k ih =>
    have hleft (i p : Fin n) (hp : p < k) (hi : k ≤ i) : P i p = Q i p :=
      (ih p hp).2 i (hp.trans_le hi)
    have habove (j p : Fin n) (hp : p < k) (hj : k ≤ j) : P p j = Q p j :=
      (ih p hp).1 j (hp.le.trans hj)
    have hrow (j : Fin n) (hj : k ≤ j) : P k j = Q k j := by
      rw [hP.upper k j hj, hQ.upper k j hj]
      exact subtractProducts_congr _ _ (fun p hp => hleft k p hp le_rfl)
        fun p hp => habove j p hp hj
    refine ⟨hrow, ?_⟩
    intro i hi
    rw [hP.lower i k hi, hQ.lower i k hi, hrow k le_rfl]
    congr 1
    exact subtractProducts_congr _ _ (fun p hp => hleft i p hp hi.le)
      fun p hp => habove k p hp le_rfl

theorem eq (hP : Recurs A P) (hQ : Recurs A Q) : P = Q := by
  ext i j
  rcases le_or_gt i j with hle | hlt
  · exact (hP.step_eq hQ i).1 j hle
  · exact (hP.step_eq hQ j).2 i hlt

end Recurs

/-! ## Packed rows -/

/-- `x` less the products of `count` packed entries left of a place and above it, from the step's
column on. -/
def leftOver (k : Nat) (done : List (Vector α n)) (x : α) (i j count : Nat) : α :=
  (List.range count).foldl
    (fun x m => Arith.sub x (Arith.mul (cell done i (k + m)) (cell done m j))) x

theorem leftOver_cons_succ (k : Nat) (pivot : Vector α n) (done : List (Vector α n)) (x : α)
    (i count : Nat) {j : Nat} (hj : j < n) :
    leftOver k (pivot :: done) x (i + 1) j (count + 1) =
      leftOver (k + 1) done (Arith.sub x (Arith.mul (cell done i k) pivot[j])) i j count := by
  simp only [leftOver, List.range_succ_eq_map, List.foldl_cons, List.foldl_map, cell_cons_succ,
    cell_cons_zero _ _ hj, Nat.add_zero, Nat.add_assoc, Nat.add_comm 1]

/-- What stands in a row of the packed rows, by the row itself and the packed rows before it. The
rows from the `k`-th step on are packed like a matrix of their own. -/
theorem Packs.cell_eq_leftOver {k : Nat} {rows done : List (Vector α n)} (h : Packs k rows done)
    {i j : Nat} (hi : i < rows.length) (hkj : k ≤ j) (hjn : j < n) :
    cell done i j =
      if j < k + i then
        Arith.div (leftOver k done (cell rows i j) i j (j - k)) (cell done (j - k) j)
      else leftOver k done (cell rows i j) i j i := by
  induction h generalizing i with
  | nil k => cases hi
  | @cons k pivot rest done hk hpivot hbelow ih =>
    cases i with
    | zero =>
      rw [if_neg (by omega), cell_cons_zero _ _ hjn, cell_cons_zero _ _ hjn]
      rfl
    | succ i =>
      have hi' : i < rest.length := Nat.lt_of_succ_lt_succ hi
      have hfactor : cell done i k = Arith.div (cell rest i k) pivot[k] := by
        rw [hbelow.cell_of_lt (by simpa using hi') (Nat.lt_succ_self k) hk,
          cell_map_eliminateRow hk _ hi' hk, if_neg (Nat.lt_irrefl k), if_pos rfl]
      rw [cell_cons_succ, cell_cons_succ]
      rcases Nat.eq_or_lt_of_le hkj with rfl | hlt
      · rw [if_pos (by omega), Nat.sub_self, cell_cons_zero _ _ hk]
        exact hfactor
      · obtain ⟨d, rfl⟩ : ∃ d, j = k + 1 + d := Nat.exists_eq_add_of_le hlt
        have hcell : cell (rest.map (eliminateRow k hk pivot)) i (k + 1 + d) =
            Arith.sub (cell rest i (k + 1 + d)) (Arith.mul (cell done i k) pivot[k + 1 + d]) := by
          rw [cell_map_eliminateRow hk _ hi' hjn, if_neg (by omega), if_neg (by omega), hfactor]
        have hcount : k + 1 + d - k = d + 1 := by omega
        have hrow := ih (i := i) (by simpa using hi') (Nat.le_add_right _ _)
        rw [hcell, Nat.add_sub_cancel_left] at hrow
        rw [hcount, leftOver_cons_succ _ _ _ _ _ _ hjn, leftOver_cons_succ _ _ _ _ _ _ hjn,
          cell_cons_succ, hrow]
        have hside : k + 1 + d < k + (i + 1) ↔ k + 1 + d < k + 1 + i := by omega
        simp only [hside]

theorem leftOver_toList (packed : Vector (Vector α n) n) (x : α) (i j : Fin n) {m : Nat}
    (hm : m ≤ n) :
    leftOver 0 packed.toList x i j m =
      subtractProducts (entryOf packed i) (fun p => entryOf packed p j) x m hm := by
  induction m with
  | zero => rfl
  | succ m ih =>
    have hleft : cell packed.toList i (0 + m) = entryOf packed i ⟨m, hm⟩ := by
      rw [Nat.zero_add]
      exact cell_toList packed i ⟨m, hm⟩
    have habove : cell packed.toList m j = entryOf packed ⟨m, hm⟩ j :=
      cell_toList packed ⟨m, hm⟩ j
    rw [subtractProducts, ← ih (Nat.le_of_succ_le hm), leftOver, List.range_succ,
      List.foldl_append, List.foldl_cons, List.foldl_nil, hleft, habove]
    rfl

theorem Packs.recurs {a : NDArray α} (hshape : a.shape = [n, n]) (hfits : n * n < wordLimit)
    {packed : Vector (Vector α n) n} (h : Packs 0 (rowsOf n a.data) packed.toList) :
    Recurs (a.matrix n) (entryOf packed) := by
  have hentry (i j : Fin n) : entryOf packed i j =
      if j < i then
        Arith.div (subtractProducts (entryOf packed i) (fun p => entryOf packed p j)
          (a.matrix n i j) j j.isLt.le) (entryOf packed j j)
      else
        subtractProducts (entryOf packed i) (fun p => entryOf packed p j) (a.matrix n i j) i
          i.isLt.le := by
    have hi : i.val < (rowsOf n a.data).length := by simp [rowsOf]
    have hcell := h.cell_eq_leftOver hi (Nat.zero_le j) j.isLt
    rw [cell_rowsOf, ← matrix_apply hshape hfits, Nat.zero_add, Nat.sub_zero, leftOver_toList,
      leftOver_toList, cell_toList, cell_toList] at hcell
    exact hcell
  constructor
  · intro i j hij
    rw [hentry i j, if_neg (Fin.not_lt.mpr hij)]
  · intro i j hji
    rw [hentry i j, if_pos hji]

/-- The entries below the diagonal, with ones on it. -/
def lowerTriangle (P : Matrix (Fin n) (Fin n) α) (i j : Fin n) : α :=
  if j < i then P i j else if j = i then Arith.one else Arith.zero

/-- The entries on and above the diagonal. -/
def upperTriangle (P : Matrix (Fin n) (Fin n) α) (i j : Fin n) : α :=
  if i ≤ j then P i j else Arith.zero

theorem lowerEntry_eq (packed : Vector (Vector α n) n) :
    lowerEntry packed = lowerTriangle (entryOf packed) := by
  funext i j
  rfl

theorem upperEntry_eq (packed : Vector (Vector α n) n) :
    upperEntry packed = upperTriangle (entryOf packed) := by
  funext i j
  by_cases hji : j < i
  · simp [upperEntry, upperTriangle, hji]
  · simp [upperEntry, upperTriangle, hji, Fin.not_lt.mp hji]
    rfl

/-- Double precision leaves a factor's entries as they are. -/
theorem factor_float64 {α : Type} [Scalar α] (entry : Fin n → Fin n → α) :
    factor .float64 entry = ⟨[n, n], .float64, bufferOf n entry⟩ :=
  congrArg _ (Array.map_id' _)

end DenseBench.Elimination

namespace DenseBench.Engine

open NDArray Elimination
open Guarded (entryOf)

variable {α : Type} [Scalar α]

/-- Factoring a square array finds the one solution of the recurrences, on rows of its own as well
as in place on the buffer, whatever the operations on its elements are. The factors are the two
triangles of it, coerced once to a float type and as they are for any other; the type shows nowhere
else. -/
theorem lu_recurs (engine : Engine) {n : Nat} {a : NDArray α} (hshape : a.shape = [n, n]) :
    (∀ l u, engine.lu a = .ok (l, u) →
      ∃ packed : Vector (Vector α n) n,
        packedFactors engine.sweep a.data = .ok packed ∧
        (a.data.size = n * n → Guarded.reduceColumns n (List.range n) a.data.toList =
          some (.ok (bufferOf n (entryOf packed)).toList)) ∧
        Recurs (a.matrix n) (entryOf packed) ∧
        (∀ P, Recurs (a.matrix n) P → P = entryOf packed) ∧
        ∀ dtype : ElementType,
          (dtype.isFloat = true → engine.lu { a with dtype := dtype } =
            .ok (factor dtype (lowerTriangle (entryOf packed)),
              factor dtype (upperTriangle (entryOf packed)))) ∧
          (dtype.isFloat = false → engine.lu { a with dtype := dtype } =
            .ok (⟨[n, n], .float64, bufferOf n (lowerTriangle (entryOf packed))⟩,
              ⟨[n, n], .float64, bufferOf n (upperTriangle (entryOf packed))⟩))) ∧
    (n * n < wordLimit → ∀ e, engine.lu a = .error e →
      ∀ dtype, engine.lu { a with dtype := dtype } = .error e) := by
  constructor
  · intro l u h
    have hfits := square_lt_of_lu_eq_ok hshape h
    rcases packedFactors_cases engine n a.data with ⟨packed, hpacks, hpacked⟩ | ⟨i, -, herror⟩
    · have hrecurs := hpacks.recurs hshape hfits
      refine ⟨packed, hpacked, ?_, hrecurs, fun P hP => hP.eq hrecurs, ?_⟩
      · intro hsize
        have hreduced := Guarded.reduceColumns_of_packs hfits hpacks
          (List.length_nil (α := Vector α n))
        rw [List.nil_append, List.nil_append, Guarded.flatMap_rowsOf hsize,
          Guarded.flatMap_toList_eq_bufferOf, rowsOf, List.length_ofFn, ← List.range_eq_range']
          at hreduced
        exact hreduced
      · intro dtype
        have hlu := lu_of_packedFactors_ok (a := { a with dtype := dtype }) hshape hfits hpacked
        rw [lowerEntry_eq, upperEntry_eq] at hlu
        constructor
        · intro hfloat
          rw [hlu, factorType, if_pos hfloat]
        · intro hfloat
          rw [hlu, factorType, if_neg (by simp [hfloat]), factor_float64, factor_float64]
    · rw [lu_of_packedFactors_error hshape herror] at h
      cases h
  · intro hfits e h dtype
    rcases packedFactors_cases engine n a.data with ⟨packed, -, hpacked⟩ | ⟨i, -, herror⟩
    · rw [lu_of_packedFactors_ok hshape hfits hpacked] at h
      cases h
    · rw [lu_of_packedFactors_error hshape herror] at h
      cases h
      exact lu_of_packedFactors_error (a := { a with dtype := dtype }) hshape herror

end DenseBench.Engine

namespace DenseBench.Elimination

open Guarded (entryOf)

/-- A matrix whose multiplier is a third, which doubles round, and then single precision again. -/
def thirds : NDArray Float := ⟨[2, 2], .float32, #[3.0, 1.0, 1.0, 1.0]⟩

theorem lu_recurs_thirds :
    thirds.shape = [2, 2] ∧ ∃ l u, (Engine.parallel .sequential).lu thirds = .ok (l, u) ∧
      ∃ packed : Vector (Vector Float 2) 2, Recurs (thirds.matrix 2) (entryOf packed) ∧
        l = factor .float32 (lowerTriangle (entryOf packed)) ∧
        u = factor .float32 (upperTriangle (entryOf packed)) := by
  obtain ⟨hok, -⟩ := Engine.lu_recurs (.parallel .sequential) (n := 2) (a := thirds) rfl
  have hsome : ((Engine.parallel .sequential).lu thirds).isOk = true := by decide +kernel
  cases hlu : (Engine.parallel .sequential).lu thirds with
  | error e =>
    rw [hlu] at hsome
    cases hsome
  | ok factors =>
    obtain ⟨l, u⟩ := factors
    obtain ⟨packed, -, -, hrecurs, -, htyped⟩ := hok l u hlu
    have hfactors := (htyped .float32).1 rfl
    have hsame : Except.ok (l, u) = Except.ok (factor .float32 (lowerTriangle (entryOf packed)),
        factor .float32 (upperTriangle (entryOf packed))) := hlu.symm.trans hfactors
    cases hsame
    exact ⟨rfl, _, _, rfl, packed, hrecurs, rfl, rfl⟩

end DenseBench.Elimination
