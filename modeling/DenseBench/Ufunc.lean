import DenseBench.Engine

/-!
# Universal functions

A universal function is a scalar operation under an exported name. The table lists every one that
the library exports.
-/

namespace DenseBench

structure Ufunc where
  name : String
  op : ScalarOp
  doc : String
  deriving DecidableEq, Repr

namespace Ufunc

def nin (u : Ufunc) : Nat :=
  u.op.arity

def isReducible (u : Ufunc) : Bool :=
  u.nin == 2 && u.op.hasIdentity

variable {α : Type} [Scalar α]

/-- Applies the function element by element. A lone scalar gives an array without dimensions. -/
@[specialize]
def call (u : Ufunc) (engine : Engine) (operands : List (Operand α)) : Except Error (NDArray α) :=
  match u.nin, operands with
  | 1, [.array a] => engine.unary u.op a
  | 1, [.scalar x] => .ok (.scalar (u.op.applyUnary x) (u.op.resultType none none))
  | 2, [lhs, rhs] => engine.binary u.op lhs rhs
  | expected, _ => .error (.arity u.name expected operands.length)

@[specialize]
def reduce (u : Ufunc) (engine : Engine) (a : NDArray α) : Except Error α :=
  if u.isReducible then engine.reduce u.op a else .error (.notReducible u.name)

def table : List Ufunc :=
  [⟨"add", .add, "Add arguments element-wise."⟩,
    ⟨"subtract", .subtract, "Subtract arguments element-wise."⟩,
    ⟨"multiply", .multiply, "Multiply arguments element-wise."⟩,
    ⟨"divide", .divide, "Divide arguments element-wise."⟩,
    ⟨"power", .power, "First array raised to powers from the second."⟩,
    ⟨"maximum", .maximum, "Element-wise maximum."⟩,
    ⟨"minimum", .minimum, "Element-wise minimum."⟩,
    ⟨"equal", .equal, "Return (x1 == x2) element-wise."⟩,
    ⟨"not_equal", .notEqual, "Return (x1 != x2) element-wise."⟩,
    ⟨"less", .less, "Return (x1 < x2) element-wise."⟩,
    ⟨"less_equal", .lessEqual, "Return (x1 <= x2) element-wise."⟩,
    ⟨"greater", .greater, "Return (x1 > x2) element-wise."⟩,
    ⟨"greater_equal", .greaterEqual, "Return (x1 >= x2) element-wise."⟩,
    ⟨"logical_and", .logicalAnd, "Truth value of x1 AND x2 element-wise."⟩,
    ⟨"logical_or", .logicalOr, "Truth value of x1 OR x2 element-wise."⟩,
    ⟨"negative", .negative, "Numerical negative, element-wise."⟩,
    ⟨"absolute", .absolute, "Absolute value element-wise."⟩,
    ⟨"sqrt", .sqrt, "Non-negative square root, element-wise."⟩,
    ⟨"exp", .exp, "Exponential of all elements."⟩,
    ⟨"log", .log, "Natural logarithm, element-wise."⟩,
    ⟨"sin", .sin, "Trigonometric sine, element-wise."⟩,
    ⟨"cos", .cos, "Cosine element-wise."⟩]

end Ufunc

end DenseBench
