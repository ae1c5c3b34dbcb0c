import DenseBench.Proofs.Double.Coercion
import DenseBench.Proofs.Guarded.Factors

/-!
# Sessions

A session is what any number of requests have made, each applied to arrays that earlier requests
made. All of its arrays are valid, and no request that is applied to them has a fault.
-/

namespace DenseBench

open NDArray

variable {α : Type}

/-- A call that makes arrays. Zeros are asked for only in a shape whose elements can be counted. -/
inductive Request (α : Type)
  | ofData (shape : List Nat) (dtype : ElementType) (data : Array α)
  | scalar (value : α) (dtype : ElementType)
  | zeros (shape : List Nat) (dtype : ElementType) {count : Nat}
      (hcount : elementCount shape = .ok count)
  | random (engine : Engine) (shape : List Nat) (dtype : ElementType) (source : Random.Source)
  | unary (engine : Engine) (op : ScalarOp) (input : NDArray α)
  | binary (engine : Engine) (op : ScalarOp) (lhs rhs : Operand α)
  | call (engine : Engine) (ufunc : Ufunc) (operands : List (Operand α))
  | lu (engine : Engine) (input : NDArray α)

namespace Request

def inputs : Request α → List (NDArray α)
  | .unary _ _ input | .lu _ input => [input]
  | .binary _ _ lhs rhs => lhs.arrays ++ rhs.arrays
  | .call _ _ operands => operands.flatMap Operand.arrays
  | _ => []

variable [Scalar α]

def answer : Request α → Except Error (List (NDArray α))
  | .ofData shape dtype data => (NDArray.ofData shape dtype data).map fun a => [a]
  | .scalar value dtype => .ok [.scalar value dtype]
  | .zeros shape dtype _ => .ok [.zeros shape dtype]
  | .random engine shape dtype source => (engine.random shape dtype source).map fun r => [r.1]
  | .unary engine op input => (engine.unary op input).map fun a => [a]
  | .binary engine op lhs rhs => (engine.binary op lhs rhs).map fun a => [a]
  | .call engine u operands => (u.call engine operands).map fun a => [a]
  | .lu engine input => (engine.lu input).map fun f => [f.1, f.2]

/-- The answer with every count and every place checked, where the request uses any beyond those
that building an array from data checks by itself. -/
def guarded : Request α → Option (Except Error (List (NDArray α)))
  | .zeros shape dtype _ => (Guarded.zeros shape dtype).map fun a => .ok [a]
  | .binary _ op lhs rhs => (Guarded.binary op lhs rhs).map (Except.map fun a => [a])
  | .call engine u operands => (Guarded.call u engine operands).map (Except.map fun a => [a])
  | .lu _ input => (Guarded.lu input).map (Except.map fun f => [f.1, f.2])
  | request => some request.answer

/-- The arrays made; a request that fails makes none. -/
def arrays (request : Request α) : List (NDArray α) :=
  match request.answer with
  | .ok made => made
  | .error _ => []

end Request

inductive Session [Scalar α] : List (NDArray α) → Prop
  | start : Session []
  | step {made : List (NDArray α)} (earlier : Session made) (request : Request α)
      (hinputs : ∀ a ∈ request.inputs, a ∈ made) : Session (made ++ request.arrays)

variable [Scalar α]

namespace Request

theorem exists_of_map_eq_ok {β γ : Type} {answer : Except Error β} {f : β → γ} {y : γ}
    (h : answer.map f = .ok y) : ∃ x, answer = .ok x ∧ f x = y := by
  cases answer with
  | error e => cases h
  | ok x => exact ⟨x, rfl, by simpa [Except.map] using h⟩

/-- Whatever a request is applied to, the arrays it makes are valid. -/
theorem valid_of_answer [CoercesOnce α] {request : Request α} {made : List (NDArray α)}
    (h : request.answer = .ok made) : ∀ a ∈ made, a.Valid := by
  cases request with
  | ofData shape dtype data =>
    obtain ⟨a, ha, rfl⟩ := exists_of_map_eq_ok h
    simpa using Valid.of_ofData ha
  | scalar value dtype =>
    cases h
    simpa using Valid.scalar value dtype
  | zeros shape dtype hcount =>
    cases h
    simpa using Valid.zeros hcount dtype
  | random engine shape dtype source =>
    obtain ⟨⟨a, after⟩, ha, rfl⟩ := exists_of_map_eq_ok h
    simpa using Valid.of_random ha
  | unary engine op input =>
    obtain ⟨a, ha, rfl⟩ := exists_of_map_eq_ok h
    simpa using Valid.of_unary ha
  | binary engine op lhs rhs =>
    obtain ⟨a, ha, rfl⟩ := exists_of_map_eq_ok h
    simpa using Valid.of_binary ha
  | call engine u operands =>
    obtain ⟨a, ha, rfl⟩ := exists_of_map_eq_ok h
    simpa using Valid.of_call ha
  | lu engine input =>
    obtain ⟨⟨l, u⟩, hlu, rfl⟩ := exists_of_map_eq_ok h
    simpa using Valid.of_lu hlu

theorem valid_of_mem_arrays [CoercesOnce α] {request : Request α} :
    ∀ a ∈ request.arrays, a.Valid := by
  unfold arrays
  split
  · rename_i made hanswer
    exact valid_of_answer hanswer
  · intro a ha
    cases ha

/-- Applied to valid arrays, a request has its answer without a fault. -/
theorem guarded_eq {request : Request α} (h : ∀ a ∈ request.inputs, a.Valid) :
    request.guarded = some request.answer := by
  cases request with
  | ofData shape dtype data => rfl
  | scalar value dtype => rfl
  | zeros shape dtype hcount =>
    rw [guarded, Guarded.zeros_eq hcount]
    rfl
  | random engine shape dtype source => rfl
  | unary engine op input => rfl
  | binary engine op lhs rhs =>
    have hlhs : ∀ a ∈ lhs.arrays, a.Valid := fun a ha => h a (List.mem_append_left _ ha)
    have hrhs : ∀ a ∈ rhs.arrays, a.Valid := fun a ha => h a (List.mem_append_right _ ha)
    rw [guarded, Guarded.binary_eq engine op hlhs hrhs]
    rfl
  | call engine u operands =>
    have hoperands : ∀ operand ∈ operands, ∀ a ∈ operand.arrays, a.Valid := by
      intro operand hmem a ha
      exact h a (List.mem_flatMap.mpr ⟨operand, hmem, ha⟩)
    rw [guarded, Guarded.call_eq u engine hoperands]
    rfl
  | lu engine input =>
    rw [guarded, Guarded.lu_eq engine (h input List.mem_cons_self).count]
    rfl

end Request

namespace Session

theorem valid_of_mem [CoercesOnce α] {made : List (NDArray α)} (h : Session made) :
    ∀ a ∈ made, a.Valid := by
  induction h with
  | start => nofun
  | step earlier request hinputs ih =>
    intro a ha
    rcases List.mem_append.mp ha with hbefore | hnew
    · exact ih a hbefore
    · exact Request.valid_of_mem_arrays a hnew

theorem valid_and_guarded {made : List (NDArray Float)} (h : Session made) :
    (∀ a ∈ made,
      a.data.size = a.shape.prod ∧ a.shape.prod < wordLimit ∧
        (∀ x ∈ a.data, Scalar.coerce a.dtype x = x) ∧
        NDArray.ofData a.shape a.dtype a.data = .ok a ∧
        ∀ row column, Guarded.get2? a row column = some (a.get2? row column)) ∧
      ∀ request : Request Float, (∀ a ∈ request.inputs, a ∈ made) →
        request.guarded = some request.answer := by
  have hvalid := h.valid_of_mem
  constructor
  · intro a ha
    have hsize := (hvalid a ha).size_eq
    exact ⟨hsize, hsize ▸ (hvalid a ha).size_lt, (hvalid a ha).coerced, (hvalid a ha).ofData_self,
      Guarded.get2?_eq (hvalid a ha)⟩
  · intro request hinputs
    exact Request.guarded_eq fun a ha => hvalid a (hinputs a ha)

def square : NDArray Float := ⟨[2, 2], .float64, #[2.0, 1.0, 4.0, 3.0]⟩

theorem valid_and_guarded_factored :
    ∃ made : List (NDArray Float), Session made ∧
      made.map NDArray.shape = [[2, 2], [2, 2], [2, 2]] ∧
        ∀ request : Request Float, (∀ a ∈ request.inputs, a ∈ made) →
          request.guarded = some request.answer := by
  have hbuilt : Session [square] :=
    .step .start (.ofData square.shape square.dtype square.data) nofun
  have hfactored : Session ([square] ++ (Request.lu .reference square).arrays) :=
    .step hbuilt (.lu .reference square) fun a ha => ha
  exact ⟨_, hfactored, by decide +kernel, (valid_and_guarded hfactored).2⟩

end Session

end DenseBench
