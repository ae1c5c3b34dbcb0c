import DenseBench.Decimal.Binary64
import DenseBench.Error
import DenseBench.Text.Numeral

/-!
# JSON strings and numbers

Two ways over each string and number. One reads what is wanted and checks it fully: surrogates must
come in pairs, and a number must have a double. The other passes over what is not wanted and checks
only its outline. Both take the characters from the lexeme on and give those after it.
-/

namespace DenseBench.Json

open Text

def isSpace (c : Char) : Bool :=
  c == ' ' || c == '\n' || c == '\t' || c == '\r'

def skipSpace (cs : List Char) : List Char :=
  cs.dropWhile isSpace

/-- Are there fewer bytes of text than that? -/
def endsWithin (bytes : Nat) : List Char → Bool
  | [] => bytes != 0
  | c :: cs => c.utf8Size < bytes && endsWithin (bytes - c.utf8Size) cs

def hexUnit (cs : List Char) : Except JsonFault (Nat × List Char) :=
  if endsWithin 4 cs then .error .endsEarly
  else match cs with
    | a :: b :: c :: d :: rest =>
      match hexValue? a, hexValue? b, hexValue? c, hexValue? d with
      | some a, some b, some c, some d => .ok (((a * 16 + b) * 16 + c) * 16 + d, rest)
      | _, _, _, _ => .error .malformed
    | _ => .error .malformed

def isHighSurrogate (unit : Nat) : Bool :=
  0xD800 ≤ unit && unit ≤ 0xDBFF

def isLowSurrogate (unit : Nat) : Bool :=
  0xDC00 ≤ unit && unit ≤ 0xDFFF

/-- The character of an escape by number, from its digits on. A high surrogate needs a low one in
a second escape right after it, and a low one needs a high one before it. -/
def numberedChar (cs : List Char) : Except JsonFault (Char × List Char) :=
  match hexUnit cs with
  | .error e => .error e
  | .ok (unit, rest) =>
    if isLowSurrogate unit then .error .malformed
    else if isHighSurrogate unit then
      match rest with
      | [] => .error .endsEarly
      | '\\' :: [] => .error .endsEarly
      | '\\' :: 'u' :: rest =>
        match hexUnit rest with
        | .error e => .error e
        | .ok (low, rest) =>
          if isLowSurrogate low then
            .ok (Char.ofNat ((unit - 0xD800) * 0x400 + (low - 0xDC00) + 0x10000), rest)
          else .error .malformed
      | _ => .error .malformed
    else .ok (Char.ofNat unit, rest)

def escapes : List (Char × Char) :=
  [('"', '"'), ('\\', '\\'), ('/', '/'), ('b', '\x08'), ('f', '\x0c'), ('n', '\n'), ('r', '\r'),
    ('t', '\t')]

/-- The text of a string, from behind its opening quote on. -/
def readString : Nat → List Char → Except JsonFault (List Char × List Char)
  | 0, _ => .error .endsEarly
  | _ + 1, [] => .error .endsEarly
  | fuel + 1, c :: rest =>
    if c = '"' then .ok ([], rest)
    else if c = '\\' then
      match rest with
      | [] => .error .endsEarly
      | 'u' :: rest =>
        match numberedChar rest with
        | .error e => .error e
        | .ok (c, rest) => (readString fuel rest).map fun r => (c :: r.1, r.2)
      | e :: rest =>
        match escapes.lookup e with
        | some c => (readString fuel rest).map fun r => (c :: r.1, r.2)
        | none => .error .malformed
    else if c.toNat < 32 then .error .malformed
    else (readString fuel rest).map fun r => (c :: r.1, r.2)

/-- What follows a string, from behind its opening quote on. -/
def passString : Nat → List Char → Except JsonFault (List Char)
  | 0, _ => .error .endsEarly
  | _ + 1, [] => .error .endsEarly
  | fuel + 1, c :: rest =>
    if c = '"' then .ok rest
    else if c = '\\' then
      match rest with
      | [] => .error .endsEarly
      | 'u' :: rest =>
        match hexUnit rest with
        | .error e => .error e
        | .ok (_, rest) => passString fuel rest
      | e :: rest => if (escapes.lookup e).isSome then passString fuel rest else .error .malformed
    else if c.toNat < 32 then .error .malformed
    else passString fuel rest

inductive Number
  | natural (n : Nat)
  | negative (n : Int)
  | float (x : Float)

/-- Significands are 64-bit words; digits that no longer fit only move the point. -/
def significandLimit : Nat := 2 ^ 64

/-- Exponents are 32-bit words. -/
def exponentBound : Nat := 2 ^ 31

def powerOfTen (n : Nat) : Float :=
  Decimal.nearest false 1 n

/-- Divides by a power of ten, in steps of `10^308`, until nothing is left. -/
def divideByPower (x : Float) (exponent : Nat) : Float :=
  if exponent ≤ 308 then x / powerOfTen exponent
  else if x == 0.0 then x
  else divideByPower (x / powerOfTen 308) (exponent - 308)
termination_by exponent

/-- A significand times a power of ten, by one rounding multiplication or division after the
significand itself has been rounded. -/
def scaled (positive : Bool) (significand : Nat) (exponent : Int) : Except JsonFault Float :=
  let x := (UInt64.ofNat significand).toFloat
  let signed (y : Float) : Float := if positive then y else -y
  if exponent < 0 then .ok (signed (divideByPower x (-exponent).toNat))
  else if exponent ≤ 308 then
    let y := x * powerOfTen exponent.toNat
    if y.isInf then .error .malformed else .ok (signed y)
  else if x == 0.0 then .ok (signed x)
  else .error .malformed

def clampExponent (e : Int) : Int :=
  max (-(exponentBound : Int)) (min e (exponentBound - 1))

/-- The exponent of a number, from behind its mark on. -/
def readExponentPart (positive : Bool) (significand : Nat) (start : Int) (cs : List Char) :
    Except JsonFault (Float × List Char) :=
  let (up, cs) := match cs with
    | '+' :: rest => (true, rest)
    | '-' :: rest => (false, rest)
    | _ => (true, cs)
  match cs with
  | [] => .error .endsEarly
  | c :: _ =>
    if !c.isDigit then .error .malformed
    else
      let e := digitsValue (cs.takeWhile Char.isDigit)
      let rest := cs.dropWhile Char.isDigit
      if exponentBound ≤ e then
        if significand ≠ 0 ∧ up then .error .malformed
        else .ok (if positive then 0.0 else -0.0, rest)
      else
        (scaled positive significand (clampExponent (if up then start + e else start - e))).map
          fun x => (x, rest)

/-- Takes digits into a significand as long as it stays a word. Gives the significand, the number
of digits taken and the characters from the first digit not taken on. -/
def takeDigits (significand taken : Nat) : List Char → Nat × Nat × List Char
  | [] => (significand, taken, [])
  | c :: rest =>
    if c.isDigit then
      let next := significand * 10 + digitValue c
      if next < significandLimit then takeDigits next (taken + 1) rest
      else (significand, taken, c :: rest)
    else (significand, taken, c :: rest)

def readTail (positive : Bool) (significand : Nat) (exponent : Int) (cs : List Char) :
    Except JsonFault (Float × List Char) :=
  match cs with
  | c :: rest =>
    if c = 'e' ∨ c = 'E' then readExponentPart positive significand exponent rest
    else (scaled positive significand exponent).map fun x => (x, cs)
  | [] => (scaled positive significand exponent).map fun x => (x, [])

/-- The digits of a fraction and what follows them, from behind the point on. -/
def readFraction (positive : Bool) (significand : Nat) (exponent : Int) (cs : List Char) :
    Except JsonFault (Float × List Char) :=
  match takeDigits significand 0 cs with
  | (significand, taken, rest) =>
    match rest with
    | c :: _ =>
      if c.isDigit then
        readTail positive significand (exponent - taken) (rest.dropWhile Char.isDigit)
      else if taken = 0 then .error .malformed
      else readTail positive significand (exponent - taken) rest
    | [] =>
      if taken = 0 then .error .endsEarly
      else readTail positive significand (exponent - taken) []

def readNumber (positive : Bool) (cs : List Char) : Except JsonFault (Number × List Char) :=
  match cs with
  | [] => .error .endsEarly
  | c :: after =>
    if !c.isDigit then .error .malformed
    else if c = '0' ∧ (after.head?.any Char.isDigit) then .error .malformed
    else
      match takeDigits 0 0 cs with
      | (significand, _, rest) =>
        let beyond := (rest.takeWhile Char.isDigit).length
        let asFloat (r : Float × List Char) : Number × List Char := (.float r.1, r.2)
        match rest.dropWhile Char.isDigit with
        | '.' :: fraction => (readFraction positive significand beyond fraction).map asFloat
        | rest =>
          if beyond ≠ 0 ∨ rest.head? = some 'e' ∨ rest.head? = some 'E' then
            (readTail positive significand beyond rest).map asFloat
          else if positive then .ok (.natural significand, rest)
          else if significand = 0 ∨ 2 ^ 63 < significand then
            .ok (.float (-(UInt64.ofNat significand).toFloat), rest)
          else .ok (.negative (-(significand : Int)), rest)

/-- Passes over digits, of which there must be one. -/
def passDigits (cs : List Char) : Except JsonFault (List Char) :=
  if cs.head?.any Char.isDigit then .ok (cs.dropWhile Char.isDigit) else .error .malformed

def passExponent (cs : List Char) : Except JsonFault (List Char) :=
  match cs with
  | c :: rest =>
    if c = 'e' ∨ c = 'E' then
      match rest with
      | '+' :: rest => passDigits rest
      | '-' :: rest => passDigits rest
      | _ => passDigits rest
    else .ok cs
  | [] => .ok []

/-- What follows a number, from behind its sign on. -/
def passNumber (cs : List Char) : Except JsonFault (List Char) :=
  let whole : Except JsonFault (List Char) := match cs with
    | '0' :: rest => if rest.head?.any Char.isDigit then .error .malformed else .ok rest
    | _ => passDigits cs
  match whole with
  | .error e => .error e
  | .ok ('.' :: rest) =>
    match passDigits rest with
    | .ok rest => passExponent rest
    | .error e => .error e
  | .ok rest => passExponent rest

end DenseBench.Json
