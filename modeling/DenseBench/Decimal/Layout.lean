import DenseBench.Decimal.Shortest

/-!
# Layouts of numbers

How the digits of a number are set out: which of two equally near decimals is taken, where the
point stands, when an exponent is written, what a whole number ends in, and what stands for
infinities and what is not a number.
-/

namespace DenseBench.Decimal

open Text

structure Layout where
  /-- What a whole number written without an exponent ends in. -/
  wholeEnd : List Char
  /-- Numbers with a leading digit at these exponents are written without an exponent; all are, if
  there is no range. -/
  positional : Option (Int × Int)
  /-- What stands between the digits and an exponent that is not negative. -/
  exponentMark : List Char
  nan : String
  infinity : String
  /-- Which of two equally near decimals is written. -/
  tie : Tie

namespace Layout

/-- The shortest digits, never with an exponent, as messages show a number. A half goes up. -/
def plain : Layout := ⟨[], none, ['e'], "NaN", "inf", .up⟩

/-- Exponents from `10^16` on and below `10^-5`, as a table of comma-separated fields shows it. -/
def field : Layout := ⟨['.', '0'], some (-5, 15), ['e'], "NaN", "inf", .even⟩

/-- The same range with a sign before every exponent, as a JSON document shows it. -/
def document : Layout := ⟨['.', '0'], some (-5, 15), ['e', '+'], "null", "null", .even⟩

def isPositional (l : Layout) (leading : Int) : Bool :=
  match l.positional with
  | none => true
  | some (low, high) => low ≤ leading && leading ≤ high

def unsigned (l : Layout) (d : Scientific) : List Char :=
  let ds := numeral d.digits
  let leading : Int := d.exponent + ds.length - 1
  if d.digits = 0 then '0' :: l.wholeEnd
  else if l.isPositional leading then
    if 0 ≤ d.exponent then
      ds ++ List.replicate d.exponent.toNat '0' ++ l.wholeEnd
    else if 0 ≤ leading then
      ds.take (leading.toNat + 1) ++ '.' :: ds.drop (leading.toNat + 1)
    else
      '0' :: '.' :: List.replicate (-leading - 1).toNat '0' ++ ds
  else
    let significand := match ds with
      | [] => []
      | [c] => [c]
      | c :: rest => c :: '.' :: rest
    if 0 ≤ leading then significand ++ l.exponentMark ++ numeral leading.toNat
    else significand ++ 'e' :: '-' :: numeral (-leading).toNat

def render (l : Layout) (x : Float) : String :=
  match parts x with
  | .nan => l.nan
  | .infinite negative => if negative then "-" ++ l.infinity else l.infinity
  | .finite negative m q =>
    String.ofList ((if negative then ['-'] else []) ++ l.unsigned (shortest l.tie m q))

end Layout

/-- `m * 2^q` times `10^places`, rounded to the nearest natural, a half to the even one. -/
def scaledRound (places m : Nat) (q : Int) : Nat :=
  roundDiv .even (m * 2 ^ q.toNat * 10 ^ places) (2 ^ (-q).toNat)

/-- The number with exactly so many digits after the point, at least one. -/
def fixed (places : Nat) (x : Float) : String :=
  match parts x with
  | .nan => "NaN"
  | .infinite negative => if negative then "-inf" else "inf"
  | .finite negative m q =>
    let ds := padded (places + 1) (scaledRound places m q)
    String.ofList ((if negative then ['-'] else []) ++ ds.take (ds.length - places) ++
      '.' :: ds.drop (ds.length - places))

end DenseBench.Decimal
