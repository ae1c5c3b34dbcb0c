import DenseBench.NDArray

/-!
# Operands

What a universal function is applied to: an array, or a bare scalar that stands for itself at every
position and has no element type.
-/

namespace DenseBench

inductive Operand (α : Type)
  | array (a : NDArray α)
  | scalar (x : α)

namespace Operand

variable {α : Type}

def dtype? : Operand α → Option ElementType
  | array a => some a.dtype
  | scalar _ => none

@[inline]
def valueAt [Scalar α] (operand : Operand α) (i : Nat) : α :=
  match operand with
  | array a => a.data.getD i Arith.zero
  | scalar x => x

/-- The shape of the result of combining two operands. -/
def commonShape (lhs rhs : Operand α) : Except Error (List Nat) :=
  match lhs, rhs with
  | array a, array b =>
    if a.shape = b.shape then .ok a.shape else .error (.shapeMismatch a.shape b.shape)
  | array a, scalar _ => .ok a.shape
  | scalar _, array b => .ok b.shape
  | scalar _, scalar _ => .error (.invalidArgument .onlyScalars)

end Operand

end DenseBench
