import DenseBench.Scalar

/-!
# Scalar operations

The operation behind each universal function: how many operands it takes, what it does to each
element, the type of its result, and where a reduction with it starts.
-/

namespace DenseBench

inductive ScalarOp
  | add
  | subtract
  | multiply
  | divide
  | power
  | maximum
  | minimum
  | equal
  | notEqual
  | less
  | lessEqual
  | greater
  | greaterEqual
  | logicalAnd
  | logicalOr
  | negative
  | absolute
  | sqrt
  | exp
  | log
  | sin
  | cos
  deriving DecidableEq, Repr

namespace ScalarOp

def all : List ScalarOp :=
  [add, subtract, multiply, divide, power, maximum, minimum, equal, notEqual, less, lessEqual,
    greater, greaterEqual, logicalAnd, logicalOr, negative, absolute, sqrt, exp, log, sin, cos]

def title : ScalarOp → String
  | add => "Add"
  | subtract => "Subtract"
  | multiply => "Multiply"
  | divide => "Divide"
  | power => "Power"
  | maximum => "Maximum"
  | minimum => "Minimum"
  | equal => "Equal"
  | notEqual => "NotEqual"
  | less => "Less"
  | lessEqual => "LessEqual"
  | greater => "Greater"
  | greaterEqual => "GreaterEqual"
  | logicalAnd => "LogicalAnd"
  | logicalOr => "LogicalOr"
  | negative => "Negative"
  | absolute => "Absolute"
  | sqrt => "Sqrt"
  | exp => "Exp"
  | log => "Log"
  | sin => "Sin"
  | cos => "Cos"

def arity : ScalarOp → Nat
  | negative | absolute | sqrt | exp | log | sin | cos => 1
  | _ => 2

/-- Comparisons and connectives, whose results are truth values. -/
def isPredicate : ScalarOp → Bool
  | equal | notEqual | less | lessEqual | greater | greaterEqual | logicalAnd | logicalOr => true
  | _ => false

/-- Operations whose results no integer type can hold. -/
def needsFloat : ScalarOp → Bool
  | divide | sqrt | exp | log | sin | cos => true
  | _ => false

/-- The type that operands of the given types combine in; a bare scalar has none of its own. -/
def operandType : Option ElementType → Option ElementType → ElementType
  | some a, some b => a.promote b
  | some a, none => a
  | none, some b => b
  | none, none => .float64

def resultType (op : ScalarOp) (lhs rhs : Option ElementType) : ElementType :=
  if op.isPredicate then
    .bool
  else
    let base := operandType lhs rhs
    if base.isBool || (op.needsFloat && !base.isFloat) then .float64 else base

variable {α : Type} [Scalar α]

/-- The result on one element; not a number for an operation on two. -/
@[specialize]
def applyUnary (op : ScalarOp) (x : α) : α :=
  match op with
  | negative => Scalar.neg x
  | absolute => Scalar.abs x
  | sqrt => Scalar.sqrt x
  | exp => Scalar.exp x
  | log => Scalar.log x
  | sin => Scalar.sin x
  | cos => Scalar.cos x
  | _ => Scalar.nan

/-- The result on two elements; not a number for an operation on one. A square is a product, and
the greater or smaller of two is not a number as soon as either is not. -/
@[specialize]
def applyBinary (op : ScalarOp) (x y : α) : α :=
  match op with
  | add => Scalar.add x y
  | subtract => Arith.sub x y
  | multiply => Arith.mul x y
  | divide => Arith.div x y
  | power => if Scalar.same y (Scalar.ofNat 2) then Arith.mul x x else Scalar.pow x y
  | maximum =>
    if Scalar.isNaN x || Scalar.isNaN y then Scalar.nan else if Scalar.less x y then y else x
  | minimum =>
    if Scalar.isNaN x || Scalar.isNaN y then Scalar.nan else if Scalar.less y x then y else x
  | equal => Scalar.ofBool (Scalar.same x y)
  | notEqual => Scalar.ofBool (!Scalar.same x y)
  | less => Scalar.ofBool (Scalar.less x y)
  | lessEqual => Scalar.ofBool (Scalar.lessEq x y)
  | greater => Scalar.ofBool (Scalar.less y x)
  | greaterEqual => Scalar.ofBool (Scalar.lessEq y x)
  | logicalAnd => Scalar.ofBool (!Arith.isZero x && !Arith.isZero y)
  | logicalOr => Scalar.ofBool (!Arith.isZero x || !Arith.isZero y)
  | _ => Scalar.nan

/-- Operations that a reduction can be made with. -/
def hasIdentity : ScalarOp → Bool
  | add | multiply | maximum | minimum | logicalAnd | logicalOr => true
  | _ => false

/-- The value a reduction starts from, for the operations that have one. -/
def identity? (op : ScalarOp) : Option α :=
  match op with
  | add | logicalOr => some Arith.zero
  | multiply | logicalAnd => some Arith.one
  | maximum => some Scalar.lowest
  | minimum => some Scalar.highest
  | _ => none

theorem isSome_identity? (op : ScalarOp) : (op.identity? : Option α).isSome = op.hasIdentity := by
  cases op <;> rfl

end ScalarOp

end DenseBench
