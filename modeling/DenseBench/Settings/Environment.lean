import DenseBench.Decimal.Reading
import DenseBench.Settings.Tree

/-!
# Settings from the environment

A variable `ARRAYBENCH_X`, in any letter case, gives the key `x`; two underscores in a row stand for
the point between a table and its entry. Its text counts as a truth value, an integer or a number if
it reads as one, in that order.
-/

namespace DenseBench.Settings

open Text

/-- What the names of variables start with, once they are in lower case. -/
def variableStart : List Char :=
  "arraybench_".toList

/-- Points for pairs of underscores, from the left. -/
def pointed : List Char → List Char
  | '_' :: '_' :: rest => '.' :: pointed rest
  | c :: rest => c :: pointed rest
  | [] => []

/-- The key that a variable of that name gives a value to. -/
def variableKey? (name : String) : Option String :=
  let name := lower name.toList
  if variableStart.isPrefixOf name then
    some (String.ofList (pointed (name.drop variableStart.length)))
  else none

def variableValue (s : String) : Tree :=
  let cs := s.toList
  if lower cs = "true".toList then .bool true
  else if lower cs = "false".toList then .bool false
  else match readInt64? cs with
    | some n => .int n
    | none => match Decimal.readFloat? cs with
      | some x => .float x
      | none => .text s

/-- What the variables say, in their order. -/
def environmentLayer (environment : List (String × String)) : List (String × Tree) :=
  environment.filterMap fun v => (variableKey? v.1).map fun key => (key, variableValue v.2)

end DenseBench.Settings
