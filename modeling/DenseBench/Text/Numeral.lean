/-!
# Decimal numerals

Writing naturals and integers in base ten, and reading numerals with an optional sign. The reading
functions take the whole text: blanks, separators or letters anywhere make them refuse.
-/

/- Powers of natural numbers are those of the core library, whatever other instance is in scope. -/
attribute [instance (high + 1), default_instance (high + 1)] instPowNat

namespace DenseBench.Text

def digitChar (d : Nat) : Char :=
  Char.ofNat (48 + d % 10)

def digitValue (c : Char) : Nat :=
  c.toNat - 48

/-- The base-ten digits of `n`, most significant first; `0` has one digit. -/
def numeral (n : Nat) : List Char :=
  if n < 10 then [digitChar n] else numeral (n / 10) ++ [digitChar (n % 10)]
termination_by n

/-- The number that a list of digits stands for. -/
def digitsValue (cs : List Char) : Nat :=
  cs.foldl (fun v c => 10 * v + digitValue c) 0

/-- A numeral of one digit or more, and nothing else. -/
def readDigits? (cs : List Char) : Option Nat :=
  if cs.isEmpty || !cs.all Char.isDigit then none else some (digitsValue cs)

/-- A numeral below `limit`, after an optional plus sign. -/
def readUnsigned? (limit : Nat) (cs : List Char) : Option Nat :=
  let digits := match cs with
    | '+' :: rest => rest
    | _ => cs
  (readDigits? digits).filter (· < limit)

/-- A numeral with an optional sign, from `-2^63` up to and excluding `2^63`. -/
def readInt64? (cs : List Char) : Option Int :=
  match cs with
  | '-' :: rest => ((readDigits? rest).filter (· ≤ 2 ^ 63)).map fun n => -(n : Int)
  | _ => (readUnsigned? (2 ^ 63) cs).map Int.ofNat

/-- The value of a hexadecimal digit of either case. -/
def hexValue? (c : Char) : Option Nat :=
  if c.isDigit then some (c.toNat - 48)
  else if 'a' ≤ c ∧ c ≤ 'f' then some (c.toNat - 87)
  else if 'A' ≤ c ∧ c ≤ 'F' then some (c.toNat - 55)
  else none

/-- Digits with zeros in front up to the given width. -/
def padded (width n : Nat) : List Char :=
  let ds := numeral n
  List.replicate (width - ds.length) '0' ++ ds

def numeralText (n : Nat) : String :=
  String.ofList (numeral n)

def integerText (n : Int) : String :=
  match n with
  | .ofNat n => numeralText n
  | .negSucc n => "-" ++ numeralText (n + 1)

/-- Numbers in brackets, a comma and a blank between two. -/
def bracketed (ns : List Nat) : String :=
  "[" ++ String.intercalate ", " (ns.map numeralText) ++ "]"

end DenseBench.Text
