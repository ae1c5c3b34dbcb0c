import DenseBench.Decimal.Binary64
import DenseBench.Scalar

/-!
# Double precision elements

Binary64 numbers as the elements of arrays of every type. Integer types cut the fraction off and
saturate at their bounds, with zero for what is not a number; truth values are zero and one.
-/

namespace DenseBench.Double

/-- The greatest magnitudes that an integer type holds below and above zero. -/
def bounds : ElementType → Nat × Nat
  | .int8 => (2 ^ 7, 2 ^ 7 - 1)
  | .int16 => (2 ^ 15, 2 ^ 15 - 1)
  | .int32 => (2 ^ 31, 2 ^ 31 - 1)
  | .int64 => (2 ^ 63, 2 ^ 63 - 1)
  | .uint8 => (0, 2 ^ 8 - 1)
  | .uint16 => (0, 2 ^ 16 - 1)
  | .uint32 => (0, 2 ^ 32 - 1)
  | .uint64 => (0, 2 ^ 64 - 1)
  | _ => (0, 0)

/-- The double nearest to an integer; zero has no sign. -/
def ofInteger (negative : Bool) (magnitude : Nat) : Float :=
  Decimal.ofParts (negative && magnitude != 0) (Decimal.nearestBits magnitude 1)

/-- The whole part of `m * 2^q`. -/
def wholePart (m : Nat) (q : Int) : Nat :=
  let ratio := Decimal.shiftedRatio m 1 (-q)
  ratio.1 / ratio.2

/-- The whole part of a number within bounds. -/
def saturate (bounds : Nat × Nat) (x : Float) : Float :=
  let bound (negative : Bool) : Nat := if negative then bounds.1 else bounds.2
  match Decimal.parts x with
  | .nan => 0.0
  | .infinite negative => ofInteger negative (bound negative)
  | .finite negative m q => ofInteger negative (min (wholePart m q) (bound negative))

/-- The bits of a magnitude's significand that single precision has no room for: 29 of 53, and one
more for each power of two below the normal range. -/
def surplusBits (exponent : UInt64) : UInt64 :=
  if 897 ≤ exponent then 29 else 926 - exponent

/-- A significand without its last bits, rounded to the nearest, a half to the even one. -/
def dropBits (significand surplus : UInt64) : UInt64 :=
  let unit : UInt64 := 1 <<< surplus
  let kept := significand / unit
  let rest := significand % unit
  if rest + rest < unit || (rest + rest == unit && kept % 2 == 0) then kept * unit
  else (kept + 1) * unit

/-- `2^52`, the leading bit of a significand. -/
def leadingBit : UInt64 := 0x10000000000000

def infiniteBits : UInt64 := 0x7FF0000000000000

/-- The bits of `2^128`, the first number beyond the range of single precision. -/
def singleLimit : UInt64 := 0x47F0000000000000

def singleBits (magnitude : UInt64) : UInt64 :=
  let exponent := magnitude / leadingBit
  let surplus := surplusBits exponent
  if 53 < surplus then 0
  else
    let significand := dropBits (leadingBit + magnitude % leadingBit) surplus
    if significand == 0 then 0
    else
      let bits := (exponent - 1) * leadingBit + significand
      if singleLimit ≤ bits then infiniteBits else bits

def signBit : UInt64 := 0x8000000000000000

/-- The single precision number nearest to a double, a half to the even one. -/
def single (x : Float) : Float :=
  let bits := x.toBits
  let magnitude := bits % signBit
  if infiniteBits ≤ magnitude then x
  else Float.ofBits (bits - magnitude + singleBits magnitude)

/-- The value that an array of the type holds in place of a double. -/
def roundTo (t : ElementType) (x : Float) : Float :=
  match t with
  | .bool => if x == 0.0 then 0.0 else 1.0
  | .float32 => single x
  | .float64 => x
  | t => saturate (bounds t) x

/-- `2^-24`, the distance of neighbouring single precision samples. -/
def unit24 : Float := Float.ofBits 0x3E70000000000000

/-- `2^-53`, the distance of neighbouring double precision samples. -/
def unit53 : Float := Float.ofBits 0x3CA0000000000000

def infinity : Float := Float.ofBits infiniteBits

def nan : Float := Float.ofBits 0x7FF8000000000000

instance : Scalar Float where
  zero := 0.0
  one := 1.0
  sub x y := x - y
  mul x y := x * y
  div x y := x / y
  isZero x := x == 0.0
  ofNat n := (UInt64.ofNat n).toFloat
  add x y := x + y
  pow x y := x.pow y
  neg x := -x
  abs x := x.abs
  sqrt x := x.sqrt
  exp x := x.exp
  log x := x.log
  sin x := x.sin
  cos x := x.cos
  same x y := x == y
  less x y := x.lt y
  lessEq x y := x.le y
  isNaN x := x.isNaN
  nan := nan
  lowest := -infinity
  highest := infinity
  round := roundTo
  unit32 w := (w >>> 8).toFloat * unit24
  unit64 w := (w >>> 11).toFloat * unit53

end DenseBench.Double
