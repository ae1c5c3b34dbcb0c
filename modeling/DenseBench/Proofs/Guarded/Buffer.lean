import DenseBench.Proofs.NDArray.Valid

/-!
# Guarded operations

The operations on flat buffers as a machine with 64-bit words carries them out that checks every
sum and product of words and every place in a buffer. `none` is a fault, while an error is an
answer. On valid arrays there are no faults, and the answers are those of the engines.
-/

namespace DenseBench

/-- The arrays among what an operation is applied to. -/
def Operand.arrays {α : Type} : Operand α → List (NDArray α)
  | .array a => [a]
  | .scalar _ => []

theorem Operand.mem_arrays {α : Type} {operand : Operand α} {a : NDArray α} :
    a ∈ operand.arrays ↔ operand = .array a := by
  cases operand <;> simp [arrays, eq_comm]

namespace Guarded

open NDArray

def plus? (a b : Nat) : Option Nat :=
  if a + b < wordLimit then some (a + b) else none

def offset? (columns row column : Nat) : Option Nat := do
  plus? (← multiply? row columns) column

theorem plus?_eq_some {a b : Nat} (h : a + b < wordLimit) : plus? a b = some (a + b) :=
  if_pos h

theorem multiply?_eq_some {a b : Nat} (h : a * b < wordLimit) : multiply? a b = some (a * b) :=
  if_pos h

theorem offset?_eq_some {columns row column : Nat} (h : offset columns row column < wordLimit) :
    offset? columns row column = some (offset columns row column) := by
  have hrow : row * columns < wordLimit := (Nat.le_add_right _ column).trans_lt h
  rw [offset?, multiply?_eq_some hrow]
  exact plus?_eq_some h

variable {α : Type} [Scalar α]

/-- The product of the dimensions, with every partial product checked. -/
def zeros (shape : List Nat) (dtype : ElementType) : Option (NDArray α) := do
  let count ← shape.foldlM multiply? 1
  pure ⟨shape, dtype, Array.replicate count Arith.zero⟩

/-- The element of a row and a column. A place that the shape does not have is no fault. -/
def get2? (a : NDArray α) (row column : Nat) : Option (Option α) :=
  match a.shape with
  | [rows, columns] =>
    if row < rows ∧ column < columns then do
      let x ← a.data[← offset? columns row column]?
      pure (some x)
    else pure none
  | _ => pure none

def valueAt (operand : Operand α) (i : Nat) : Option α :=
  match operand with
  | .array a => a.data[i]?
  | .scalar x => some x

def combineAt (op : ScalarOp) (lhs rhs : Operand α) (i : Nat) : Option α := do
  pure (op.applyBinary (← valueAt lhs i) (← valueAt rhs i))

def binary (op : ScalarOp) (lhs rhs : Operand α) : Option (Except Error (NDArray α)) :=
  if op.arity = 2 then
    match lhs.commonShape rhs with
    | .error e => some (.error e)
    | .ok shape => do
      let count ← shape.foldlM multiply? 1
      let data ← (List.range count).mapM (combineAt op lhs rhs)
      pure (ofData shape (op.resultType lhs.dtype? rhs.dtype?) data.toArray)
  else
    some (.error (.invalidArgument (.notBinary op.title)))

/-- Only the functions of two operands count and index by themselves. -/
def call (u : Ufunc) (engine : Engine) (operands : List (Operand α)) :
    Option (Except Error (NDArray α)) :=
  match u.nin, operands with
  | 2, [lhs, rhs] => binary u.op lhs rhs
  | _, _ => some (u.call engine operands)

theorem zeros_eq {shape : List Nat} {count : Nat} (h : elementCount shape = .ok count)
    (dtype : ElementType) :
    (zeros shape dtype : Option (NDArray α)) = some (.zeros shape dtype) := by
  rw [zeros, elementCount_eq_ok_iff_foldlM.mp h, NDArray.zeros, wrappedCount_of_elementCount h]
  rfl

theorem get2?_eq {a : NDArray α} (h : a.Valid) (row column : Nat) :
    get2? a row column = some (a.get2? row column) := by
  obtain ⟨shape, dtype, data⟩ := a
  match shape with
  | [rows, columns] =>
    by_cases hin : row < rows ∧ column < columns
    · have hsize : data.size = rows * columns := by simpa using h.size_eq
      have hplace : offset columns row column < data.size :=
        hsize ▸ offset_lt_mul hin.1 hin.2
      have hword : offset columns row column < wordLimit := hplace.trans h.size_lt
      simp only [get2?, NDArray.get2?, if_pos hin, offset?_eq_some hword, Nat.mod_eq_of_lt hword]
      simp [hplace]
    · simp only [get2?, NDArray.get2?, if_neg hin]
      rfl
  | [] => rfl
  | [_] => rfl
  | _ :: _ :: _ :: _ => rfl

theorem valueAt_eq {operand : Operand α} {i : Nat}
    (h : ∀ a, operand = .array a → i < a.data.size) :
    valueAt operand i = some (operand.valueAt i) := by
  cases operand with
  | scalar x => rfl
  | array a =>
    have hi := h a rfl
    simp [valueAt, Operand.valueAt, hi]

theorem mapM_eq_some {β γ : Type} {f : β → Option γ} {g : β → γ} {xs : List β}
    (h : ∀ x ∈ xs, f x = some (g x)) : xs.mapM f = some (xs.map g) := by
  induction xs with
  | nil => rfl
  | cons x xs ih =>
    have hx := h x List.mem_cons_self
    have hxs := ih fun y hy => h y (List.mem_cons_of_mem x hy)
    rw [List.mapM_cons, hx, hxs]
    rfl

theorem combineAt_eq {op : ScalarOp} {lhs rhs : Operand α} (hlhs : ∀ a ∈ lhs.arrays, a.Valid)
    (hrhs : ∀ a ∈ rhs.arrays, a.Valid)
    {shape : List Nat} (hshape : lhs.commonShape rhs = .ok shape) {i : Nat} (hi : i < shape.prod) :
    combineAt op lhs rhs i = some (op.applyBinary (lhs.valueAt i) (rhs.valueAt i)) := by
  have hleft : valueAt lhs i = some (lhs.valueAt i) := by
    apply valueAt_eq
    intro a ha
    rw [(hlhs a (Operand.mem_arrays.mpr ha)).size_eq,
      ← Operand.shape_eq_of_commonShape hshape (.inl ha)]
    exact hi
  have hright : valueAt rhs i = some (rhs.valueAt i) := by
    apply valueAt_eq
    intro a ha
    rw [(hrhs a (Operand.mem_arrays.mpr ha)).size_eq,
      ← Operand.shape_eq_of_commonShape hshape (.inr ha)]
    exact hi
  rw [combineAt, hleft, hright]
  rfl

/-- One of the operands is an array, so their shape can be counted. -/
theorem elementCount_commonShape {lhs rhs : Operand α} (hlhs : ∀ a ∈ lhs.arrays, a.Valid)
    (hrhs : ∀ a ∈ rhs.arrays, a.Valid)
    {shape : List Nat} (hshape : lhs.commonShape rhs = .ok shape) :
    elementCount shape = .ok shape.prod := by
  obtain ⟨a, ha⟩ : ∃ a, lhs = .array a ∨ rhs = .array a := by
    cases lhs with
    | array a => exact ⟨a, .inl rfl⟩
    | scalar x =>
      cases rhs with
      | array a => exact ⟨a, .inr rfl⟩
      | scalar y => cases hshape
  have hvalid : a.Valid := by
    rcases ha with hleft | hright
    · exact hlhs a (Operand.mem_arrays.mpr hleft)
    · exact hrhs a (Operand.mem_arrays.mpr hright)
  rw [Operand.shape_eq_of_commonShape hshape ha, ← hvalid.size_eq]
  exact hvalid.count

theorem binary_eq (engine : Engine) (op : ScalarOp) {lhs rhs : Operand α}
    (hlhs : ∀ a ∈ lhs.arrays, a.Valid) (hrhs : ∀ a ∈ rhs.arrays, a.Valid) :
    binary op lhs rhs = some (engine.binary op lhs rhs) := by
  unfold binary Engine.binary
  by_cases harity : op.arity = 2
  · rw [if_pos harity, if_pos harity]
    cases hshape : lhs.commonShape rhs with
    | error e => rfl
    | ok shape =>
      have hcount := elementCount_commonShape hlhs hrhs hshape
      have hdata : (List.range shape.prod).mapM (combineAt op lhs rhs) =
          some ((List.range shape.prod).map fun i =>
            op.applyBinary (lhs.valueAt i) (rhs.valueAt i)) :=
        mapM_eq_some fun i hi => combineAt_eq hlhs hrhs hshape (List.mem_range.mp hi)
      have harray : ((List.range shape.prod).map fun i =>
          op.applyBinary (lhs.valueAt i) (rhs.valueAt i)).toArray =
            engine.tabulate (wrappedCount shape) fun i =>
              op.applyBinary (lhs.valueAt i) (rhs.valueAt i) := by
        rw [wrappedCount_of_elementCount hcount, Engine.tabulate_eq_ofFn]
        apply Array.ext
        · simp
        · intro i hi hi'
          simp
      simp only [elementCount_eq_ok_iff_foldlM.mp hcount, Option.bind_eq_bind, Option.bind_some,
        hdata, harray]
      rfl
  · rw [if_neg harity, if_neg harity]

theorem call_eq (u : Ufunc) (engine : Engine) {operands : List (Operand α)}
    (h : ∀ operand ∈ operands, ∀ a ∈ operand.arrays, a.Valid) :
    call u engine operands = some (u.call engine operands) := by
  unfold call
  split
  · rename_i lhs rhs hnin
    simp only [Ufunc.call, hnin]
    exact binary_eq engine u.op (h lhs (by simp)) (h rhs (by simp))
  · rfl

end Guarded

end DenseBench
