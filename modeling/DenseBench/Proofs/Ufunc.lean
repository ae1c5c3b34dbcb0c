import DenseBench.Double
import DenseBench.Proofs.Guarded.Buffer

/-!
# Calls of universal functions

What a call returns, for every list of operands and on every engine, as a relation with one case for
each outcome. The buffers of the arrays are as long as their shapes say, also where a shape that
nothing has checked wraps around, so that no call reads outside them.
-/

namespace DenseBench

open NDArray

variable {α : Type}

/-! ## Arrays and their shapes -/

/-- As many elements as the dimensions give in 64-bit arithmetic. -/
def NDArray.Counted (a : NDArray α) : Prop :=
  a.data.size = wrappedCount a.shape

/-- One of the operands is an array, and every array among them has this shape. -/
structure Operand.Share (operands : List (Operand α)) (shape : List Nat) : Prop where
  exists_array : ∃ a, .array a ∈ operands
  shape_eq : ∀ a, .array a ∈ operands → a.shape = shape

theorem ScalarOp.arity_eq (op : ScalarOp) : op.arity = 1 ∨ op.arity = 2 := by
  cases op <;> decide

namespace Operand

variable {lhs rhs : Operand α}

theorem commonShape_eq_ok_iff {shape : List Nat} :
    lhs.commonShape rhs = .ok shape ↔ Share [lhs, rhs] shape := by
  constructor
  · intro h
    constructor
    · cases lhs with
      | array a => exact ⟨a, List.mem_cons_self⟩
      | scalar x =>
        cases rhs with
        | array b => exact ⟨b, List.mem_cons_of_mem _ List.mem_cons_self⟩
        | scalar y => cases h
    · intro a ha
      have hside : lhs = .array a ∨ rhs = .array a := by simpa [eq_comm] using ha
      exact (shape_eq_of_commonShape h hside).symm
  · rintro ⟨hexists, hshape⟩
    cases lhs with
    | array a =>
      have ha : a.shape = shape := hshape a List.mem_cons_self
      cases rhs with
      | array b =>
        have hb : b.shape = shape := hshape b (List.mem_cons_of_mem _ List.mem_cons_self)
        exact (if_pos (ha.trans hb.symm)).trans (congrArg Except.ok ha)
      | scalar y => exact congrArg Except.ok ha
    | scalar x =>
      cases rhs with
      | array b =>
        exact congrArg Except.ok (hshape b (List.mem_cons_of_mem _ List.mem_cons_self))
      | scalar y => simp at hexists

/-- Every place that the wrapped count of the common shape gives is in the buffers. -/
theorem Share.read [Scalar α] {operands : List (Operand α)} {shape : List Nat}
    (h : Share operands shape) (hcounted : ∀ a, .array a ∈ operands → a.Counted)
    {operand : Operand α} (hmem : operand ∈ operands) {i : Nat} (hi : i < wrappedCount shape) :
    Guarded.valueAt operand i = some (operand.valueAt i) := by
  apply Guarded.valueAt_eq
  rintro a rfl
  have hsize : a.data.size = wrappedCount a.shape := hcounted a hmem
  rwa [hsize, h.shape_eq a hmem]

end Operand

variable [Scalar α]

theorem NDArray.Valid.counted {a : NDArray α} (h : a.Valid) : a.Counted :=
  (wrappedCount_of_elementCount h.count).symm

theorem NDArray.counted_zeros (shape : List Nat) (dtype : ElementType) :
    (zeros shape dtype : NDArray α).Counted :=
  Array.size_replicate

/-! ## Outcomes -/

namespace Ufunc

def typeOf (u : Ufunc) (operands : List (Operand α)) : ElementType :=
  u.op.resultType (operands[0]?.bind Operand.dtype?) (operands[1]?.bind Operand.dtype?)

def valueAt (u : Ufunc) (operands : List (Operand α)) (i : Nat) : α :=
  match operands with
  | [x] => u.op.applyUnary (x.valueAt i)
  | [x, y] => u.op.applyBinary (x.valueAt i) (y.valueAt i)
  | _ => Scalar.nan

/-- The array of so many results, each coerced to the type of the result. -/
def elementwise (u : Ufunc) (operands : List (Operand α)) (shape : List Nat) (count : Nat) :
    NDArray α where
  shape := shape
  dtype := u.typeOf operands
  data := Array.ofFn fun i : Fin count =>
    Scalar.coerce (u.typeOf operands) (u.valueAt operands i)

/-- What a call with these operands returns. -/
inductive Returns (u : Ufunc) : List (Operand α) → Except Error (NDArray α) → Prop
  | arity {operands : List (Operand α)} (h : operands.length ≠ u.nin) :
      Returns u operands (.error (.arity u.name u.nin operands.length))
  | scalar {x : α} (h : u.nin = 1) :
      Returns u [.scalar x] (.ok (u.elementwise [.scalar x] [] 1))
  | onlyScalars {x y : α} (h : u.nin = 2) :
      Returns u [.scalar x, .scalar y] (.error (.invalidArgument .onlyScalars))
  | shapes {a b : NDArray α} (h : u.nin = 2) (hshapes : a.shape ≠ b.shape) :
      Returns u [.array a, .array b] (.error (.shapeMismatch a.shape b.shape))
  | tooMany {operands : List (Operand α)} {shape : List Nat} {e : Error}
      (h : operands.length = u.nin) (hshare : Operand.Share operands shape)
      (hcount : elementCount shape = .error e) :
      Returns u operands (.error (.invalidSize (.tooManyElements shape)))
  | elements {operands : List (Operand α)} {shape : List Nat} {count : Nat}
      (h : operands.length = u.nin) (hshare : Operand.Share operands shape)
      (hcount : elementCount shape = .ok count) :
      Returns u operands (.ok (u.elementwise operands shape count))

variable {u : Ufunc} {operands : List (Operand α)} {shape : List Nat}

omit [Scalar α] in
theorem operands_cases (h : operands.length = u.nin) :
    (u.nin = 1 ∧ ∃ x, operands = [x]) ∨ (u.nin = 2 ∧ ∃ lhs rhs, operands = [lhs, rhs]) := by
  rcases u.op.arity_eq with hnin | hnin
  · exact .inl ⟨hnin, List.length_eq_one_iff.mp (h.trans hnin)⟩
  · exact .inr ⟨hnin, List.length_eq_two.mp (h.trans hnin)⟩

theorem exists_returns (u : Ufunc) (operands : List (Operand α)) :
    ∃ r, Returns u operands r := by
  have hshared (shape : List Nat) (h : operands.length = u.nin)
      (hshare : Operand.Share operands shape) : ∃ r, Returns u operands r := by
    cases hcount : elementCount shape with
    | error e => exact ⟨_, .tooMany h hshare hcount⟩
    | ok count => exact ⟨_, .elements h hshare hcount⟩
  by_cases hlength : operands.length = u.nin
  · rcases operands_cases hlength with ⟨hnin, x, rfl⟩ | ⟨hnin, lhs, rhs, rfl⟩
    · cases x with
      | array a => exact hshared a.shape hlength ⟨⟨a, by simp⟩, by simp⟩
      | scalar x => exact ⟨_, .scalar hnin⟩
    · cases hshape : lhs.commonShape rhs with
      | ok shape => exact hshared shape hlength (Operand.commonShape_eq_ok_iff.mp hshape)
      | error e =>
        -- two scalars or two arrays: a scalar and an array always have a shape in common
        cases lhs with
        | array a =>
          cases rhs with
          | array b =>
            refine ⟨_, .shapes hnin fun hshapes => ?_⟩
            rw [Operand.commonShape, if_pos hshapes] at hshape
            cases hshape
          | scalar y => cases hshape
        | scalar x =>
          cases rhs with
          | array b => cases hshape
          | scalar y => exact ⟨_, .onlyScalars hnin⟩
  · exact ⟨_, .arity hlength⟩

variable {engine : Engine}

theorem call_one (h : u.nin = 1) (a : NDArray α) :
    u.call engine [.array a] =
      ofData a.shape (u.typeOf [.array a])
        (engine.tabulate a.data.size fun i => u.valueAt [.array a] i) := by
  simp only [call, h]
  exact if_pos h

/-- The engine is asked only for the operations that take two operands. -/
theorem call_two (h : u.nin = 2) (lhs rhs : Operand α) :
    u.call engine [lhs, rhs] =
      match lhs.commonShape rhs with
      | .error e => .error e
      | .ok shape =>
        ofData shape (u.typeOf [lhs, rhs])
          (engine.tabulate (wrappedCount shape) fun i => u.valueAt [lhs, rhs] i) := by
  simp only [call, h]
  exact if_pos h

theorem call_eq_ofData (hlength : operands.length = u.nin) (hshare : Operand.Share operands shape)
    (hcounted : ∀ a, .array a ∈ operands → a.Counted) :
    u.call engine operands =
      ofData shape (u.typeOf operands)
        (Array.ofFn fun i : Fin (wrappedCount shape) => u.valueAt operands i) := by
  rcases operands_cases hlength with ⟨hnin, x, rfl⟩ | ⟨hnin, lhs, rhs, rfl⟩
  · obtain ⟨a, ha⟩ := hshare.exists_array
    obtain rfl : x = .array a := (List.mem_singleton.mp ha).symm
    have hshape : a.shape = shape := hshare.shape_eq a ha
    have hsize : a.data.size = wrappedCount shape := hshape ▸ hcounted a ha
    rw [call_one hnin, Engine.tabulate_eq_ofFn, hsize, hshape]
  · rw [call_two hnin, Operand.commonShape_eq_ok_iff.mpr hshare]
    simp only [Engine.tabulate_eq_ofFn]

theorem call_of_returns {r : Except Error (NDArray α)} (h : Returns u operands r)
    (hcounted : ∀ a, .array a ∈ operands → a.Counted) : u.call engine operands = r := by
  cases h with
  | arity h =>
    -- every pattern but the last has as many operands as the function takes
    unfold call
    split
    · rename_i hnin
      exact absurd hnin.symm h
    · rename_i hnin
      exact absurd hnin.symm h
    · rename_i hnin
      exact absurd hnin.symm h
    · rfl
  | scalar h =>
    simp only [call, h]
    rfl
  | onlyScalars h =>
    rw [call_two h]
    rfl
  | @shapes a b h hshapes =>
    have hcommon : Operand.commonShape (.array a) (.array b) =
        .error (.shapeMismatch a.shape b.shape) := if_neg hshapes
    rw [call_two h, hcommon]
  | tooMany h hshare hcount =>
    rw [call_eq_ofData h hshare hcounted, ← (elementCount_eq_error_iff.mp hcount).2]
    simp only [ofData, hcount]
  | elements h hshare hcount =>
    rw [call_eq_ofData h hshare hcounted, wrappedCount_of_elementCount hcount]
    refine ofData_eq_ok_iff.mpr ⟨by rw [hcount, Array.size_ofFn], ?_⟩
    rw [Array.map_ofFn]
    rfl

theorem call_eq_iff {r : Except Error (NDArray α)}
    (hcounted : ∀ a, .array a ∈ operands → a.Counted) :
    u.call engine operands = r ↔ Returns u operands r := by
  constructor
  · rintro rfl
    obtain ⟨r, hr⟩ := exists_returns u operands
    rwa [call_of_returns hr hcounted]
  · exact fun h => call_of_returns h hcounted

/-- All that a call can return, on arrays with as many elements as their shapes say. It never gets
as far as an engine that refuses the number of its operands, to data of the wrong length, or to a
place outside a buffer. -/
theorem call_returns (u : Ufunc) (engine : Engine) (operands : List (Operand α))
    (hcounted : ∀ a, .array a ∈ operands → a.Counted) :
    (∀ r, u.call engine operands = r ↔ Returns u operands r) ∧
      (u.call engine operands = .error (.arity u.name u.nin operands.length) ↔
        operands.length ≠ u.nin) ∧
      (∀ title, u.call engine operands ≠ .error (.invalidArgument (.notUnary title)) ∧
        u.call engine operands ≠ .error (.invalidArgument (.notBinary title))) ∧
      ∀ shape, operands.length = u.nin → Operand.Share operands shape →
        (∃ data, u.call engine operands = ofData shape (u.typeOf operands) data ∧
          ∀ count, elementCount shape = .ok count → count = data.size) ∧
        ∀ operand ∈ operands, ∀ i < wrappedCount shape,
          Guarded.valueAt operand i = some (operand.valueAt i) := by
  refine ⟨fun r => call_eq_iff hcounted, ?_, fun title => ⟨?_, ?_⟩, ?_⟩
  · rw [call_eq_iff hcounted]
    constructor
    · intro h
      cases h with
      | arity h => exact h
    · exact .arity
  · rw [Ne, call_eq_iff hcounted]
    nofun
  · rw [Ne, call_eq_iff hcounted]
    nofun
  · intro shape hlength hshare
    refine ⟨⟨_, call_eq_ofData hlength hshare hcounted, fun count hcount => ?_⟩,
      fun operand hmem i hi => hshare.read hcounted hmem hi⟩
    rw [Array.size_ofFn, wrappedCount_of_elementCount hcount]

def scalarAndArray : List (Operand Float) :=
  [.scalar 1.0, .array ⟨[2], .int8, #[0.0, 3.0]⟩]

/-- Zeros in a shape whose number of elements is no word. -/
def uncountable : NDArray Float :=
  zeros [2 ^ 32, 2 ^ 32] .float64

theorem mem_scalarAndArray {a : NDArray Float} :
    .array a ∈ scalarAndArray ↔ a = ⟨[2], .int8, #[0.0, 3.0]⟩ := by
  simp [scalarAndArray]

theorem call_returns_float :
    (∀ a, .array a ∈ scalarAndArray → a.Counted) ∧
      (∀ engine : Engine, (⟨"less", .less, ""⟩ : Ufunc).call engine scalarAndArray =
        .ok ⟨[2], .bool, #[0.0, 1.0]⟩) ∧
      uncountable.Counted ∧
        ∀ engine : Engine, (⟨"sqrt", .sqrt, ""⟩ : Ufunc).call engine [.array uncountable] =
          .error (.invalidSize (.tooManyElements [2 ^ 32, 2 ^ 32])) := by
  have hcounted : ∀ a, .array a ∈ scalarAndArray → a.Counted := by
    intro a ha
    rw [mem_scalarAndArray.mp ha]
    rfl
  have hshare : Operand.Share scalarAndArray [2] := by
    refine ⟨⟨_, mem_scalarAndArray.mpr rfl⟩, fun a ha => ?_⟩
    rw [mem_scalarAndArray.mp ha]
  have hdata : ((⟨"less", .less, ""⟩ : Ufunc).elementwise scalarAndArray [2] 2).data =
      #[0.0, 1.0] := by
    decide +kernel
  have hzeros : ∀ a, Operand.array a ∈ [Operand.array uncountable] → a.Counted := by
    intro a ha
    obtain rfl : a = uncountable := by simpa using ha
    exact counted_zeros _ _
  have hshareZeros : Operand.Share [.array uncountable] [2 ^ 32, 2 ^ 32] := by
    refine ⟨⟨_, List.mem_singleton_self _⟩, fun a ha => ?_⟩
    obtain rfl : a = uncountable := by simpa using ha
    rfl
  refine ⟨hcounted, fun engine => ?_, counted_zeros _ _, fun engine => ?_⟩
  · rw [← hdata]
    exact ((call_returns ⟨"less", .less, ""⟩ engine _ hcounted).1 _).mpr (.elements rfl hshare rfl)
  · exact ((call_returns ⟨"sqrt", .sqrt, ""⟩ engine _ hzeros).1 _).mpr
      (.tooMany rfl hshareZeros rfl)

/-- A function of the table need not return an array for one array, since zeros can have a shape
that is too large for anything else. -/
theorem exists_call_too_many :
    ∃ u ∈ table, u.nin = 1 ∧
      u.call .reference [.array uncountable] =
          .error (.invalidSize (.tooManyElements [2 ^ 32, 2 ^ 32])) ∧
        ∀ b, u.call .reference [.array uncountable] ≠ .ok b := by
  have hcall : (⟨"sqrt", .sqrt, "Non-negative square root, element-wise."⟩ : Ufunc).call .reference
      [.array uncountable] = .error (.invalidSize (.tooManyElements [2 ^ 32, 2 ^ 32])) := rfl
  refine ⟨_, ?_, rfl, hcall, fun b hb => ?_⟩
  · decide
  · rw [hcall] at hb
    cases hb

end Ufunc

end DenseBench
