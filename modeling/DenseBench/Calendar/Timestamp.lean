import DenseBench.Calendar.Date
import DenseBench.Text.Character
import DenseBench.Text.Numeral

/-!
# Timestamps

Moments in universal time and their written form: date, `T`, time of day, a fraction of 0, 3, 6 or
9 digits and an offset. A leap second is a second with more than a whole second's nanoseconds.
Reading takes any offset, blanks between the parts and numbers without their leading zeros.
-/

namespace DenseBench.Calendar

open Text

/-- Seconds since the first of January 1970 and nanoseconds on top of them. -/
structure Timestamp where
  seconds : Int
  nanos : Nat
  deriving DecidableEq, Repr

def secondsPerDay : Int := 86400

def nanosPerSecond : Nat := 1000000000

namespace Timestamp

/-- Years of four digits are written bare, all others with their sign. -/
def yearText (year : Int) : List Char :=
  if 0 ≤ year ∧ year ≤ 9999 then padded 4 year.toNat
  else if year < 0 then '-' :: padded 4 year.natAbs
  else '+' :: padded 4 year.natAbs

/-- The fewest digits in groups of three that hold the fraction. -/
def fractionText (nanos : Nat) : List Char :=
  if nanos = 0 then []
  else if nanos % 1000000 = 0 then '.' :: padded 3 (nanos / 1000000)
  else if nanos % 1000 = 0 then '.' :: padded 6 (nanos / 1000)
  else '.' :: padded 9 nanos

/-- The moment in universal time, followed by the given mark for its offset. -/
def render (zone : List Char) (t : Timestamp) : List Char :=
  let date := Date.ofDays (t.seconds.fdiv secondsPerDay)
  let second := (t.seconds.fmod secondsPerDay).toNat
  let isLeap := nanosPerSecond ≤ t.nanos
  yearText date.year ++ '-' :: padded 2 date.month ++ '-' :: padded 2 date.day ++
    'T' :: padded 2 (second / 3600) ++ ':' :: padded 2 (second / 60 % 60) ++
    ':' :: padded 2 (second % 60 + if isLeap then 1 else 0) ++
    fractionText (if isLeap then t.nanos - nanosPerSecond else t.nanos) ++ zone

def documentText (t : Timestamp) : String :=
  String.ofList (t.render ['Z'])

def fieldText (t : Timestamp) : String :=
  String.ofList (t.render ['+', '0', '0', ':', '0', '0'])

/-- A number of at most so many digits after blanks, and the characters after it. -/
def readNumber? (width : Nat) (cs : List Char) : Option (Nat × List Char) :=
  let cs := trimStart cs
  let ds := (cs.takeWhile Char.isDigit).take width
  if ds.isEmpty then none else some (digitsValue ds, cs.drop ds.length)

/-- A year: four digits at most, or any number of them after a sign. -/
def readYear? (cs : List Char) : Option (Int × List Char) :=
  match trimStart cs with
  | '-' :: rest =>
    if rest.head?.any Char.isDigit then
      (readNumber? rest.length rest).map fun r => (-(r.1 : Int), r.2)
    else none
  | '+' :: rest =>
    if rest.head?.any Char.isDigit then
      (readNumber? rest.length rest).map fun r => ((r.1 : Int), r.2)
    else none
  | cs => (readNumber? 4 cs).map fun r => ((r.1 : Int), r.2)

/-- A mark that may have blanks before it. -/
def readMark? (mark : Char) (cs : List Char) : Option (List Char) :=
  match trimStart cs with
  | c :: rest => if c = mark then some rest else none
  | [] => none

/-- A fraction of a second in nanoseconds; digits after the ninth do not count. -/
def readFraction? (cs : List Char) : Option (Nat × List Char) :=
  match cs with
  | '.' :: rest =>
    let ds := (rest.takeWhile Char.isDigit).take 9
    if ds.isEmpty then none
    else some (digitsValue ds * 10 ^ (9 - ds.length), rest.dropWhile Char.isDigit)
  | _ => some (0, cs)

def isColonOrBlank (c : Char) : Bool :=
  c == ':' || isBlank c

def readOffsetSize? (cs : List Char) : Option (Nat × List Char) :=
  match cs with
  | a :: b :: rest =>
    if a.isDigit && b.isDigit then
      match rest.dropWhile isColonOrBlank with
      | c :: d :: rest =>
        if c.isDigit && d.isDigit && digitValue c < 6 then
          some ((digitValue a * 10 + digitValue b) * 3600 +
            (digitValue c * 10 + digitValue d) * 60, rest)
        else none
      | _ => none
    else none
  | _ => none

/-- An offset in seconds: `Z`, `UTC`, or hours and minutes after a sign. -/
def readOffset? (cs : List Char) : Option (Int × List Char) :=
  match cs with
  | [] => none
  | c :: rest =>
    if (lowerAscii (cs.take 3)) = ['u', 't', 'c'] then some (0, cs.drop 3)
    else if c = 'Z' ∨ c = 'z' then some (0, rest)
    else if c = '+' then (readOffsetSize? rest).map fun r => ((r.1 : Int), r.2)
    else if c = '-' ∨ c = '−' then (readOffsetSize? rest).map fun r => (-(r.1 : Int), r.2)
    else none

/-- Years that a date can have. -/
def firstYear : Int := -262143

def lastYear : Int := 262142

def isYear (year : Int) : Bool :=
  firstYear ≤ year && year ≤ lastYear

/-- The moment of a local date and time of day at an offset, if there is such a moment. -/
def ofLocal? (date : Date) (hour minute second nanos : Nat) (offset : Int) : Option Timestamp :=
  if isYear date.year && date.isValid && hour < 24 && minute < 60 && second ≤ 60 &&
      -secondsPerDay < offset && offset < secondsPerDay then
    let leap := second = 60
    let time : Int := (hour * 60 + minute) * 60 + (if leap then 59 else second : Nat)
    let total := date.toDays * secondsPerDay + time - offset
    if isYear (Date.ofDays (total.fdiv secondsPerDay)).year then
      some ⟨total, if leap then nanos + nanosPerSecond else nanos⟩
    else none
  else none

def ofText? (s : String) : Option Timestamp := do
  let (year, cs) ← readYear? s.toList
  let cs ← readMark? '-' cs
  let (month, cs) ← readNumber? 2 cs
  let cs ← readMark? '-' cs
  let (day, cs) ← readNumber? 2 cs
  let cs ← match cs with
    | 'T' :: rest | 't' :: rest | ' ' :: rest => some rest
    | _ => none
  let (hour, cs) ← readNumber? 2 cs
  let cs ← readMark? ':' cs
  let (minute, cs) ← readNumber? 2 cs
  let cs ← readMark? ':' cs
  let (second, cs) ← readNumber? 2 cs
  let (nanos, cs) ← readFraction? cs
  let (offset, cs) ← readOffset? (trimStart cs)
  if (trimStart cs).isEmpty then ofLocal? ⟨year, month, day⟩ hour minute second nanos offset
  else none

end Timestamp

end DenseBench.Calendar
