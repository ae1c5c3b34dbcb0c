import DenseBench.ElementType

/-!
# Scalar arithmetic

The operations that array functions ask of an element. Elimination needs four of them and a test
for zero; the elementwise functions need the rest. No law is assumed here: exact fields and
rounding machine numbers are instances alike.
-/

namespace DenseBench

/-- What Gaussian elimination uses. -/
class Arith (α : Type) where
  zero : α
  one : α
  sub : α → α → α
  mul : α → α → α
  div : α → α → α
  isZero : α → Bool

/-- What the elementwise functions, reductions and random fills use. -/
class Scalar (α : Type) extends Arith α where
  ofNat : Nat → α
  add : α → α → α
  pow : α → α → α
  neg : α → α
  abs : α → α
  sqrt : α → α
  exp : α → α
  log : α → α
  sin : α → α
  cos : α → α
  same : α → α → Bool
  less : α → α → Bool
  lessEq : α → α → Bool
  isNaN : α → Bool
  nan : α
  lowest : α
  highest : α
  /-- The nearest value that an array of the given type other than `float64` can hold. -/
  round : ElementType → α → α
  /-- A sample in `[0, 1)` from one random word, at single precision. -/
  unit32 : UInt32 → α
  /-- A sample in `[0, 1)` from a random double word, at double precision. -/
  unit64 : UInt64 → α

namespace Scalar

variable {α : Type} [Scalar α]

/-- The value as an array of type `t` holds it. -/
@[inline]
def coerce (t : ElementType) (x : α) : α :=
  match t with
  | .float64 => x
  | t => round t x

@[inline]
def ofBool (b : Bool) : α :=
  if b then Arith.one else Arith.zero

end Scalar

end DenseBench
