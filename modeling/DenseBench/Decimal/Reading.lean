import DenseBench.Decimal.Binary64
import DenseBench.Text.Numeral

/-!
# Reading decimals

A decimal text with an optional sign, point and exponent as the nearest double. At least one digit
must stand before or after the point, and one after an exponent mark. Infinity and not a number are
read by name, in any letter case.
-/

namespace DenseBench.Decimal

open Text

def readExponent? (cs : List Char) : Option Int :=
  match cs with
  | '-' :: rest => (readDigits? rest).map fun n => -(n : Int)
  | '+' :: rest => (readDigits? rest).map Int.ofNat
  | _ => (readDigits? cs).map Int.ofNat

/-- Digits, point and exponent, as a significand and a power of ten. -/
def readScientific? (cs : List Char) : Option (Nat × Int) :=
  let whole := cs.takeWhile Char.isDigit
  let rest := cs.dropWhile Char.isDigit
  let (fraction, rest) := match rest with
    | '.' :: rest => (rest.takeWhile Char.isDigit, rest.dropWhile Char.isDigit)
    | _ => ([], rest)
  if whole.isEmpty && fraction.isEmpty then none
  else
    let digits := digitsValue (whole ++ fraction)
    match rest with
    | [] => some (digits, -(fraction.length : Int))
    | c :: rest =>
      if c = 'e' ∨ c = 'E' then
        (readExponent? rest).map fun e => (digits, e - fraction.length)
      else none

def readFloat? (cs : List Char) : Option Float :=
  let (negative, rest) := match cs with
    | '-' :: rest => (true, rest)
    | '+' :: rest => (false, rest)
    | _ => (false, cs)
  let word := String.ofList (rest.map Char.toLower)
  if word = "inf" ∨ word = "infinity" then some (ofParts negative infinityBits)
  else if word = "nan" then some (ofParts false (infinityBits + 2 ^ 51))
  else (readScientific? rest).map fun p => nearest negative p.1 p.2

end DenseBench.Decimal
