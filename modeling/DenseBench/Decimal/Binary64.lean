import DenseBench.Text.Numeral

/-!
# Binary64 numbers as exact rationals

Taking a double apart into an integer times a power of two, and the other way round: the double
nearest to a quotient of naturals. All arithmetic is exact.
-/

namespace DenseBench.Decimal

/-- A finite double is `m * 2^q`, with its sign apart. -/
inductive Parts
  | nan
  | infinite (negative : Bool)
  | finite (negative : Bool) (m : Nat) (q : Int)
  deriving DecidableEq, Repr

def lowestExponent : Int := -1074

def partsOfBits (bits : Nat) : Parts :=
  let negative := bits / 2 ^ 63 % 2 == 1
  let exponent := bits / 2 ^ 52 % 2 ^ 11
  let fraction := bits % 2 ^ 52
  if exponent = 2047 then
    if fraction = 0 then .infinite negative else .nan
  else if exponent = 0 then
    .finite negative fraction lowestExponent
  else
    .finite negative (2 ^ 52 + fraction) (lowestExponent + (exponent - 1 : Nat))

def parts (x : Float) : Parts :=
  partsOfBits x.toBits.toNat

/-- Where a half goes: to the even one of its neighbours, or up. -/
inductive Tie
  | even
  | up
  deriving DecidableEq, Repr

/-- Does a half above `d` go down to it? -/
def Tie.goesDown : Tie → Nat → Bool
  | even, d => d % 2 == 0
  | up, _ => false

def roundDiv (tie : Tie) (num den : Nat) : Nat :=
  let d := num / den
  let r := num % den
  if 2 * r < den || (2 * r == den && tie.goesDown d) then d else d + 1

/-- `num / den / 2^e` as a quotient of naturals. -/
def shiftedRatio (num den : Nat) (e : Int) : Nat × Nat :=
  if 0 ≤ e then (num, den * 2 ^ e.toNat) else (num * 2 ^ (-e).toNat, den)

def infinityBits : Nat := 2047 * 2 ^ 52

/-- The bits of the double nearest to `num / den`, a half to the even one; infinity beyond the
greatest double. -/
def nearestBits (num den : Nat) : Nat :=
  if num = 0 then 0
  else
    let e₀ := max ((num.log2 : Int) - den.log2 - 53) lowestExponent
    let scaled := shiftedRatio num den e₀
    let e := if 2 ^ 53 ≤ scaled.1 / scaled.2 then e₀ + 1 else e₀
    let ratio := shiftedRatio num den e
    let m := roundDiv .even ratio.1 ratio.2
    let bits := if m < 2 ^ 52 then m else (e - lowestExponent).toNat * 2 ^ 52 + m
    min bits infinityBits

def ofParts (negative : Bool) (bits : Nat) : Float :=
  Float.ofBits (UInt64.ofNat (bits + if negative then 2 ^ 63 else 0))

/-- Decimal exponents beyond this lead out of the range of doubles for any significand of few
enough digits. -/
def exponentLimit : Int := 400

def nearest (negative : Bool) (digits : Nat) (exponent : Int) : Float :=
  let bits :=
    if digits = 0 then 0
    else if exponentLimit < exponent then infinityBits
    else if exponent < -exponentLimit - (digits.log2 : Int) then 0
    else if 0 ≤ exponent then nearestBits (digits * 10 ^ exponent.toNat) 1
    else nearestBits digits (10 ^ (-exponent).toNat)
  ofParts negative bits

end DenseBench.Decimal
