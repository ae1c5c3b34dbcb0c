import DenseBench.Calendar.Date
import DenseBench.Settings.Tree

/-!
# Numbers and moments of TOML

The words that stand for truth values, numbers, dates and times. Underscores may separate digits.
A date or time stands as its normal text in a table under a key of its own, until the whole
document has been read.
-/

namespace DenseBench.Toml

open Text Settings

/-- Digits with single underscores between them, without the underscores. -/
def separated? (isDigit : Char → Bool) : List Char → Option (List Char)
  | [] => none
  | [c] => if isDigit c then some [c] else none
  | c :: '_' :: rest => if isDigit c then (separated? isDigit rest).map (c :: ·) else none
  | c :: rest => if isDigit c then (separated? isDigit rest).map (c :: ·) else none

/-- Decimal digits without a needless zero in front. -/
def wholeDigits? (cs : List Char) : Option (List Char) :=
  match cs with
  | ['0'] => some ['0']
  | '0' :: _ => none
  | _ => separated? Char.isDigit cs

def digitOf (c : Char) : Nat :=
  if c.isDigit then c.toNat - 48 else if c.toNat < 97 then c.toNat - 55 else c.toNat - 87

def isDigitOf (base : Nat) (c : Char) : Bool :=
  (c.isDigit || ('a' ≤ c && c ≤ 'f') || ('A' ≤ c && c ≤ 'F')) && digitOf c < base

def basedNumber? (base : Nat) (cs : List Char) : Option Tree :=
  match separated? (isDigitOf base) cs with
  | some ds =>
    let n := ds.foldl (fun n c => base * n + digitOf c) 0
    if n < 2 ^ 63 then some (.int n) else none
  | none => none

def decimalNumber? (negative : Bool) (cs : List Char) : Option Tree :=
  match wholeDigits? cs with
  | some ds =>
    let n := digitsValue ds
    if n < 2 ^ 63 ∨ (negative ∧ n = 2 ^ 63) then some (.int (if negative then -(n : Int) else n))
    else none
  | none => none

def isDigitOrSeparator (c : Char) : Bool :=
  c.isDigit || c == '_'

/-- The exponent that a word ends in, if it does not end before it. -/
def exponent? (cs : List Char) : Option Int :=
  match cs with
  | [] => some 0
  | c :: rest =>
    if c = 'e' ∨ c = 'E' then
      match rest with
      | '-' :: ds => (separated? Char.isDigit ds).map fun ds => -(digitsValue ds : Int)
      | '+' :: ds => (separated? Char.isDigit ds).map fun ds => (digitsValue ds : Int)
      | ds => (separated? Char.isDigit ds).map fun ds => (digitsValue ds : Int)
    else none

/-- A number with a fraction or an exponent. Beyond the greatest double there is no such number. -/
def floatNumber? (negative : Bool) (cs : List Char) : Option Tree := do
  let whole ← wholeDigits? (cs.takeWhile isDigitOrSeparator)
  let rest := cs.dropWhile isDigitOrSeparator
  let (fraction, rest) ← match rest with
    | '.' :: rest =>
      (separated? Char.isDigit (rest.takeWhile isDigitOrSeparator)).map fun ds =>
        (ds, rest.dropWhile isDigitOrSeparator)
    | _ => some ([], rest)
  let e ← exponent? rest
  let x := Decimal.nearest negative (digitsValue (whole ++ fraction)) (e - fraction.length)
  if x.isInf && !negative then none
  return .float x

def infinity (negative : Bool) : Tree :=
  .float (Decimal.ofParts negative Decimal.infinityBits)

def notANumber : Tree :=
  .float (Decimal.ofParts false (Decimal.infinityBits + 2 ^ 51))

def unsigned? (negative : Bool) (cs : List Char) : Option Tree :=
  if cs = ['i', 'n', 'f'] then some (infinity negative)
  else if cs = ['n', 'a', 'n'] then some notANumber
  else if (cs.dropWhile isDigitOrSeparator).isEmpty then decimalNumber? negative cs
  else floatNumber? negative cs

def number? (cs : List Char) : Option Tree :=
  match cs with
  | '0' :: 'x' :: ds => basedNumber? 16 ds
  | '0' :: 'o' :: ds => basedNumber? 8 ds
  | '0' :: 'b' :: ds => basedNumber? 2 ds
  | '+' :: rest => unsigned? false rest
  | '-' :: rest => unsigned? true rest
  | _ => unsigned? false cs

/-- Exactly so many digits, and what follows them. -/
def fixedDigits? (count : Nat) (cs : List Char) : Option (Nat × List Char) :=
  let ds := cs.take count
  if ds.length = count && ds.all Char.isDigit then some (digitsValue ds, cs.drop count) else none

/-- A date in its normal form, and what follows it. -/
def date? (cs : List Char) : Option (List Char × List Char) := do
  let (year, cs) ← fixedDigits? 4 cs
  let '-' :: cs := cs | none
  let (month, cs) ← fixedDigits? 2 cs
  let '-' :: cs := cs | none
  let (day, cs) ← fixedDigits? 2 cs
  let date : Calendar.Date := ⟨year, month, day⟩
  if !date.isValid then none
  return (padded 4 year ++ '-' :: padded 2 month ++ '-' :: padded 2 day, cs)

/-- A fraction of a second in its normal form: nine digits at most, and no zeros at the end. -/
def fraction? (cs : List Char) : Option (List Char × List Char) :=
  match cs with
  | '.' :: rest =>
    let ds := rest.takeWhile Char.isDigit
    if ds.isEmpty then none
    else
      let kept := ((ds.take 9).reverse.dropWhile (· == '0')).reverse
      some (if kept.isEmpty then [] else '.' :: kept, rest.drop ds.length)
  | _ => some ([], cs)

/-- A time of day in its normal form, and what follows it. A leap second may end any minute. -/
def time? (cs : List Char) : Option (List Char × List Char) := do
  let (hour, cs) ← fixedDigits? 2 cs
  let ':' :: cs := cs | none
  let (minute, cs) ← fixedDigits? 2 cs
  let ':' :: cs := cs | none
  let (second, cs) ← fixedDigits? 2 cs
  let (fraction, cs) ← fraction? cs
  if hour < 24 && minute < 60 && second ≤ 60 then
    return (padded 2 hour ++ ':' :: padded 2 minute ++ ':' :: padded 2 second ++ fraction, cs)
  else none

/-- An offset in its normal form, if the word does not end before it. -/
def offset? (cs : List Char) : Option (List Char) := do
  match cs with
  | [] => return []
  | ['Z'] => return ['Z']
  | ['z'] => return ['Z']
  | sign :: cs =>
    if sign ≠ '+' ∧ sign ≠ '-' then none
    let (hour, cs) ← fixedDigits? 2 cs
    let ':' :: cs := cs | none
    let (minute, cs) ← fixedDigits? 2 cs
    if hour < 24 && minute < 60 && cs.isEmpty then
      let sign := if hour = 0 ∧ minute = 0 then '+' else sign
      return sign :: padded 2 hour ++ ':' :: padded 2 minute
    else none

def timeAndOffset? (cs : List Char) : Option (List Char) := do
  let (time, cs) ← time? cs
  return time ++ (← offset? cs)

/-- A date, a date with a time, or a time, in its normal form. -/
def moment? (cs : List Char) : Option (List Char) :=
  match date? cs with
  | some (date, []) => some date
  | some (date, mark :: rest) =>
    if mark = 'T' ∨ mark = 't' ∨ mark = ' ' then
      (timeAndOffset? rest).map fun time => date ++ 'T' :: time
    else none
  | none =>
    match time? cs with
    | some (time, []) => some time
    | _ => none

/-- The key of the table that holds a moment. -/
def momentKey : String := "$__toml_private_datetime"

def momentTable (normal : List Char) : Tree :=
  .table [(momentKey, .text (String.ofList normal))]

def isWordChar (c : Char) : Bool :=
  c.isAlphanum || c == '+' || c == '-' || c == '_' || c == '.' || c == ':'

/-- A word, together with the time behind one blank if the word is a date. -/
def word (cs : List Char) : List Char × List Char :=
  let first := cs.takeWhile isWordChar
  let rest := cs.drop first.length
  match date? first, rest with
  | some (_, []), ' ' :: more =>
    let second := more.takeWhile isWordChar
    if (timeAndOffset? second).isSome then (first ++ ' ' :: second, more.drop second.length)
    else (first, rest)
  | _, _ => (first, rest)

def literal? (cs : List Char) : Option Tree :=
  if cs = ['t', 'r', 'u', 'e'] then some (.bool true)
  else if cs = ['f', 'a', 'l', 's', 'e'] then some (.bool false)
  else ((moment? cs).map momentTable).or (number? cs)

end DenseBench.Toml
