import DenseBench.Proofs.NDArray.Count
import DenseBench.Proofs.Schedule

/-!
# Elementwise operations

The order in which an engine visits the elements does not show in the result, so the reference
engine decides what every engine returns. When an array is returned is told by an equivalence that
also gives its shape, its type and its elements.
-/

namespace DenseBench

/-- The common shape is that of each array among the operands. -/
theorem Operand.shape_eq_of_commonShape {α : Type} {lhs rhs : Operand α} {shape : List Nat}
    (h : lhs.commonShape rhs = .ok shape) {a : NDArray α} (ha : lhs = .array a ∨ rhs = .array a) :
    shape = a.shape := by
  cases lhs with
  | scalar x =>
    obtain rfl : rhs = .array a := ha.resolve_left nofun
    cases h
    rfl
  | array b =>
    cases rhs with
    | scalar y =>
      obtain rfl : b = a := by simpa using ha
      cases h
      rfl
    | array c =>
      by_cases hshapes : b.shape = c.shape
      · rw [commonShape, if_pos hshapes] at h
        cases h
        rcases ha with hb | hc
        · cases hb
          rfl
        · cases hc
          exact hshapes
      · rw [commonShape, if_neg hshapes] at h
        cases h

namespace Engine

open NDArray

variable {α : Type} [Scalar α]

theorem unary_eq_reference (engine : Engine) (op : ScalarOp) (a : NDArray α) :
    engine.unary op a = reference.unary op a := by
  simp only [unary, tabulate_eq_ofFn]

theorem binary_eq_reference (engine : Engine) (op : ScalarOp) (lhs rhs : Operand α) :
    engine.binary op lhs rhs = reference.binary op lhs rhs := by
  simp only [binary, tabulate_eq_ofFn]

theorem tabulate_getD (engine : Engine) (data : Array α) (change : α → α) :
    engine.tabulate data.size (fun i => change (data.getD i Arith.zero)) = data.map change := by
  rw [tabulate_eq_ofFn]
  apply Array.ext
  · simp
  · intro i hi hi'
    simp

theorem unary_eq_ok_iff {engine : Engine} {op : ScalarOp} {a b : NDArray α} :
    engine.unary op a = .ok b ↔
      op.arity = 1 ∧ elementCount a.shape = .ok a.data.size ∧
        b = ⟨a.shape, op.resultType (some a.dtype) none,
          (a.data.map op.applyUnary).map
            (Scalar.coerce (op.resultType (some a.dtype) none))⟩ := by
  unfold unary
  by_cases harity : op.arity = 1
  · rw [if_pos harity, tabulate_getD, ofData_eq_ok_iff, Array.size_map]
    exact (and_iff_right harity).symm
  · simp [harity]

/-- The elements that combining two operands gives, before they are coerced. -/
def combined (op : ScalarOp) (lhs rhs : Operand α) (count : Nat) : Array α :=
  Array.ofFn fun i : Fin count => op.applyBinary (lhs.valueAt i) (rhs.valueAt i)

theorem binary_eq_ok_iff {engine : Engine} {op : ScalarOp} {lhs rhs : Operand α}
    {b : NDArray α} :
    engine.binary op lhs rhs = .ok b ↔
      op.arity = 2 ∧ ∃ shape count, lhs.commonShape rhs = .ok shape ∧
        elementCount shape = .ok count ∧
          b = ⟨shape, op.resultType lhs.dtype? rhs.dtype?,
            (combined op lhs rhs count).map
              (Scalar.coerce (op.resultType lhs.dtype? rhs.dtype?))⟩ := by
  unfold binary
  by_cases harity : op.arity = 2
  · rw [if_pos harity]
    cases hshape : lhs.commonShape rhs with
    | error e => simp
    | ok shape =>
      simp only [tabulate_eq_ofFn]
      rw [ofData_eq_ok_iff, Array.size_ofFn]
      constructor
      · rintro ⟨hcount, rfl⟩
        exact ⟨harity, shape, _, rfl, hcount, rfl⟩
      · rintro ⟨-, shape', count, hshape', hcount, rfl⟩
        cases hshape'
        rw [wrappedCount_of_elementCount hcount]
        exact ⟨hcount, rfl⟩
  · simp [harity]

end Engine

end DenseBench
