import DenseBench.Decimal.Layout
import DenseBench.Text.Character

/-!
# Settings trees

What files and the environment say, before it is known what is wanted: values, lists and tables,
merged layer over layer. A table goes into a table entry by entry, and any other value takes the
place of what was there. Keys count in lower case.
-/

namespace DenseBench.Settings

open Text

inductive Tree
  | null
  | bool (b : Bool)
  | int (n : Int)
  | float (x : Float)
  | text (s : String)
  | list (items : List Tree)
  | table (entries : List (String × Tree))

def lowerKey (key : String) : String :=
  String.ofList (lower key.toList)

def updateKey (key : String) (change : Option Tree → Tree) :
    List (String × Tree) → List (String × Tree)
  | [] => [(key, change none)]
  | e :: rest =>
    if e.1 = key then (key, change (some e.2)) :: rest else e :: updateKey key change rest

namespace Tree

def entries : Tree → List (String × Tree)
  | table es => es
  | _ => []

def items : Tree → List Tree
  | list xs => xs
  | _ => []

mutual

/-- The value of a key once a new one has been merged into it. -/
def mergeValue : Tree → Option Tree → Tree
  | table new, old => mergeEntries new (old.getD (table []))
  | new, _ => new

def mergeEntries : List (String × Tree) → Tree → Tree
  | [], target => target
  | (key, value) :: rest, target =>
    mergeEntries rest (table (updateKey (lowerKey key) (mergeValue value) target.entries))

end

def mergeKey (key : String) (value target : Tree) : Tree :=
  table (updateKey (lowerKey key) (mergeValue value) target.entries)

/-- A place in a list, counted from the end if it is negative. -/
def place? (length : Nat) (index : Int) : Option Nat :=
  if 0 ≤ index then some index.toNat
  else if index.natAbs ≤ length then some (length - index.natAbs)
  else none

/-- Changes one item of a list, which grows as far as that item. -/
def updateItem (index : Int) (change : Tree → Tree) (target : Tree) : Tree :=
  match place? target.items.length index with
  | none => list target.items
  | some i =>
    let items := target.items ++ List.replicate (i + 1 - target.items.length) null
    list (items.modify i change)

end Tree

/-- Where in a tree a key leads: a name, a name within something, or an item of it. -/
inductive KeyPath
  | name (key : String)
  | child (parent : KeyPath) (key : String)
  | item (parent : KeyPath) (index : Int)

namespace KeyPath

def isKeyChar (c : Char) : Bool :=
  c.isAlphanum || c == '_' || c == '-' || c == ' '

/-- An index behind its opening bracket, with blanks around it, up to its closing one. -/
def readIndex? (cs : List Char) : Option (Int × List Char) :=
  let cs := cs.dropWhile fun c => c == ' ' || c == '\t'
  let (negative, cs) := match cs with
    | '-' :: rest => (true, rest)
    | _ => (false, cs)
  let digits := cs.takeWhile Char.isDigit
  match readDigits? digits, (cs.drop digits.length).dropWhile (fun c => c == ' ' || c == '\t') with
  | some n, ']' :: rest =>
    if n < 2 ^ 63 ∨ (negative ∧ n = 2 ^ 63) then some (if negative then -(n : Int) else n, rest)
    else none
  | _, _ => none

def readSteps? : Nat → KeyPath → List Char → Option KeyPath
  | _, path, [] => some path
  | 0, _, _ :: _ => none
  | fuel + 1, path, c :: rest =>
    if c = '.' then
      let key := rest.takeWhile isKeyChar
      if key.isEmpty then none
      else readSteps? fuel (.child path (String.ofList key)) (rest.drop key.length)
    else if c = '[' then
      match readIndex? rest with
      | some (index, rest) => readSteps? fuel (.item path index) rest
      | none => none
    else none

/-- Reads a key as a path; a key that is no path leads to its own name. -/
def ofKey (key : String) : KeyPath :=
  let cs := key.toList
  let first := cs.takeWhile isKeyChar
  if first.isEmpty then .name key
  else (readSteps? cs.length (.name (String.ofList first)) (cs.drop first.length)).getD (.name key)

def updateEntry (key : String) (change : Tree → Tree) (t : Tree) : Tree :=
  .table (updateKey (lowerKey key) (fun old => change (old.getD .null)) t.entries)

/-- Changes the value that a path leads to, and makes what is missing on the way. -/
def update : KeyPath → (Tree → Tree) → Tree → Tree
  | .name key, change, root => updateEntry key change root
  | .child parent key, change, root => parent.update (updateEntry key change) root
  | .item parent index, change, root => parent.update (Tree.updateItem index change) root

/-- Merges a value into the place that a path leads to. -/
def merge : KeyPath → Tree → Tree → Tree
  | .name key, value, root => Tree.mergeKey key value root
  | .child parent key, value, root => parent.update (Tree.mergeKey key value) root
  | .item parent index, value, root => parent.update (Tree.updateItem index fun _ => value) root

end KeyPath

/-- Merges one layer over those below it. Its keys are paths, read in lower case. -/
def Tree.overlay (layer : List (String × Tree)) (below : Tree) : Tree :=
  layer.foldl (fun t e => (KeyPath.ofKey (lowerKey e.1)).merge e.2 t) below

end DenseBench.Settings
