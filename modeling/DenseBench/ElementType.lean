import DenseBench.Error
import DenseBench.Text.Character

/-!
# Element types

The eleven types an array's elements can have, in promotion order, with their names and the texts
that name them.
-/

namespace DenseBench

open Text

/-- Listed in promotion order: of two types the later one holds the result of combining them. -/
inductive ElementType
  | bool
  | int8
  | int16
  | int32
  | int64
  | uint8
  | uint16
  | uint32
  | uint64
  | float32
  | float64
  deriving DecidableEq, Repr

namespace ElementType

def all : List ElementType :=
  [bool, int8, int16, int32, int64, uint8, uint16, uint32, uint64, float32, float64]

def name : ElementType → String
  | bool => "bool"
  | int8 => "int8"
  | int16 => "int16"
  | int32 => "int32"
  | int64 => "int64"
  | uint8 => "uint8"
  | uint16 => "uint16"
  | uint32 => "uint32"
  | uint64 => "uint64"
  | float32 => "float32"
  | float64 => "float64"

def byName : List (String × ElementType) :=
  all.map fun t => (t.name, t)

def isFloat : ElementType → Bool
  | float32 | float64 => true
  | _ => false

def isBool : ElementType → Bool
  | bool => true
  | _ => false

/-- The type of a result that combines elements of both types: the later in promotion order. -/
def promote (a b : ElementType) : ElementType :=
  if a.ctorIdx ≤ b.ctorIdx then b else a

def aliases : List (String × ElementType) :=
  [("float", float64), ("double", float64), ("single", float32), ("int", int64), ("bool_", bool)]

def ofName? (name : String) : Option ElementType :=
  match aliases.lookup name with
  | some t => some t
  | none => all.find? (·.name == name)

/-- The text without the qualifying word, however often it is repeated in front. -/
def dropQualifier : List Char → List Char
  | 'n' :: 'u' :: 'm' :: 'p' :: 'y' :: '.' :: rest => dropQualifier rest
  | cs => cs

/-- Reads a type's name in any letter case, between blanks and after any number of qualifiers. -/
def parse (s : String) : Except Error ElementType :=
  match ofName? (String.ofList (dropQualifier (lowerAscii (trim s.toList)))) with
  | some t => .ok t
  | none => .error (.unsupportedType s .parsing)

theorem promote_self (a : ElementType) : a.promote a = a := by
  cases a <;> rfl

theorem promote_comm (a b : ElementType) : a.promote b = b.promote a := by
  cases a <;> cases b <;> rfl

theorem ofName?_name (t : ElementType) : ofName? t.name = some t := by
  cases t <;> rfl

end ElementType

end DenseBench
