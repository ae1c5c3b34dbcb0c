import DenseBench.Decimal.Binary64
import DenseBench.Text.Numeral

/-!
# Shortest decimals

The fewest decimal digits that lie in the interval of reals which round to a given double, and of
those the nearest to it. The interval's ends belong to it if the double's significand is even. Two
decimals may be equally near; which one is taken is up to those who write them.
-/

namespace DenseBench.Decimal

open Text

structure Scientific where
  digits : Nat
  exponent : Int
  deriving DecidableEq, Repr

/-- The interval that rounds to `m * 2^q`, all over one denominator. -/
structure Interval where
  low : Nat
  value : Nat
  high : Nat
  den : Nat
  closed : Bool

/-- The gap below a power of two is half as wide as the gap above it. -/
def intervalOf (m : Nat) (q : Int) : Interval :=
  let low := if m = 2 ^ 52 ∧ lowestExponent < q then 4 * m - 1 else 4 * m - 2
  let scale := 2 ^ (q - 2).toNat
  ⟨low * scale, 4 * m * scale, (4 * m + 2) * scale, 2 ^ (2 - q).toNat, m % 2 == 0⟩

def leadingExponent (num den : Nat) : Int :=
  if den ≤ num then (numeral (num / den)).length - 1
  else -((numeral ((den + num - 1) / num - 1)).length : Int)

namespace Interval

def contains (i : Interval) (d : Nat) (k : Int) : Bool :=
  let point := d * 10 ^ k.toNat * i.den
  let unit := 10 ^ (-k).toNat
  if i.closed then i.low * unit ≤ point && point ≤ i.high * unit
  else i.low * unit < point && point < i.high * unit

/-- The interval's point on the grid of `10^k` that is nearest to the value. -/
def onGrid? (i : Interval) (tie : Tie) (k : Int) : Option Nat :=
  let num := i.value * 10 ^ (-k).toNat
  let den := i.den * 10 ^ k.toNat
  let d := num / den
  match i.contains d k, i.contains (d + 1) k with
  | false, false => none
  | true, false => some d
  | false, true => some (d + 1)
  | true, true => some (roundDiv tie num den)

/-- Tries ever finer grids, down from that of `10^k`. -/
def search (i : Interval) (tie : Tie) : Nat → Int → Option Scientific
  | 0, _ => none
  | grids + 1, k =>
    match i.onGrid? tie k with
    | some d => some ⟨d, k⟩
    | none => i.search tie grids (k - 1)

end Interval

/-- The decimal with zeros at the end of its digits moved into the exponent. -/
def trimZeros (digits : Nat) (exponent : Int) : Scientific :=
  if digits = 0 then ⟨0, 0⟩
  else if digits % 10 = 0 then trimZeros (digits / 10) (exponent + 1)
  else ⟨digits, exponent⟩
termination_by digits

/-- Seventeen digits tell any two doubles apart. -/
def gridCount : Nat := 17

/-- The shortest decimal that reads back as `m * 2^q`. -/
def shortest (tie : Tie) (m : Nat) (q : Int) : Scientific :=
  if m = 0 then ⟨0, 0⟩
  else
    let i := intervalOf m q
    match i.search tie gridCount (leadingExponent i.value i.den) with
    | some d => trimZeros d.digits d.exponent
    | none => ⟨0, 0⟩

end DenseBench.Decimal
