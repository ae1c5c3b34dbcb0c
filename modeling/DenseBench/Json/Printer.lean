import DenseBench.Decimal.Layout

/-!
# Printing JSON

Documents set out over several lines: two blanks of indentation a level, a blank after the colon,
nothing between the brackets of an empty list or record, and no line end after the last bracket.
-/

namespace DenseBench.Json

open Text

inductive Value
  | bool (b : Bool)
  | word (n : Nat)
  | number (x : Float)
  | text (s : String)
  | list (items : List Value)
  | record (fields : List (String × Value))

def hexDigit (n : Nat) : Char :=
  if n < 10 then Char.ofNat (48 + n) else Char.ofNat (87 + n)

/-- The quote, the backslash and the control characters are escaped, nothing else is. -/
def escape (c : Char) : List Char :=
  if c = '"' then ['\\', '"']
  else if c = '\\' then ['\\', '\\']
  else if c = '\n' then ['\\', 'n']
  else if c = '\r' then ['\\', 'r']
  else if c = '\t' then ['\\', 't']
  else if c.toNat = 8 then ['\\', 'b']
  else if c.toNat = 12 then ['\\', 'f']
  else if c.toNat < 32 then
    ['\\', 'u', '0', '0', hexDigit (c.toNat / 16), hexDigit (c.toNat % 16)]
  else [c]

def quoted (s : String) : List Char :=
  '"' :: s.toList.flatMap escape ++ ['"']

def newLine (level : Nat) : List Char :=
  '\n' :: List.replicate (2 * level) ' '

/-- A number; what is not finite has no numeral and is written as a null. -/
def numberText (x : Float) : List Char :=
  match Decimal.parts x with
  | .finite .. => (Decimal.Layout.document.render x).toList
  | _ => ['n', 'u', 'l', 'l']

mutual

def Value.print (level : Nat) : Value → List Char
  | .bool true => ['t', 'r', 'u', 'e']
  | .bool false => ['f', 'a', 'l', 's', 'e']
  | .word n => numeral n
  | .number x => numberText x
  | .text s => quoted s
  | .list [] => ['[', ']']
  | .list (item :: items) =>
    '[' :: newLine (level + 1) ++ item.print (level + 1) ++ printItems level items
  | .record [] => ['\x7b', '\x7d']
  | .record ((key, value) :: fields) =>
    '\x7b' :: newLine (level + 1) ++ quoted key ++ ':' :: ' ' :: value.print (level + 1) ++
      printFields level fields

def printItems (level : Nat) : List Value → List Char
  | [] => newLine level ++ [']']
  | item :: items =>
    ',' :: newLine (level + 1) ++ item.print (level + 1) ++ printItems level items

def printFields (level : Nat) : List (String × Value) → List Char
  | [] => newLine level ++ ['\x7d']
  | (key, value) :: fields =>
    ',' :: newLine (level + 1) ++ quoted key ++ ':' :: ' ' :: value.print (level + 1) ++
      printFields level fields

end

def Value.toText (v : Value) : String :=
  String.ofList (v.print 0)

end DenseBench.Json
