import DenseBench.FileTree
import DenseBench.Json.Found
import DenseBench.Settings.Tree
import DenseBench.Toml.Document

/-!
# Settings files

Finding a settings file and reading what it says. The end of its name tells the format. A name that
leads to no file is tried with the ends of all formats behind it. Two of the formats are read here;
what texts in the others say, and which format is tried first, is left open.
-/

namespace DenseBench.Settings

open Json

inductive FileFormat
  | toml
  | json
  | yaml
  | ini
  | ron
  | json5
  deriving DecidableEq, Repr

namespace FileFormat

def extensions : FileFormat → List String
  | toml => ["toml"]
  | json => ["json"]
  | yaml => ["yaml", "yml"]
  | ini => ["ini"]
  | ron => ["ron"]
  | json5 => ["json5"]

def all : List FileFormat :=
  [toml, json, yaml, ini, ron, json5]

end FileFormat

/-- What is left open about settings files: the order in which formats are tried behind a name, and
what a text says whose format is not read here. -/
structure Readers where
  order : List FileFormat := FileFormat.all
  read? : FileFormat → String → Option (List (String × Tree)) := fun _ _ => none

/-- What stands behind the last point of a name, if anything stands before it. -/
def extension? (name : String) : Option String :=
  let ending := name.toList.reverse.takeWhile (· ≠ '.')
  match name.toList.reverse.drop ending.length with
  | '.' :: _ :: _ => some (String.ofList ending.reverse)
  | _ => none

def formatOf? (name : String) : Option FileFormat :=
  (extension? name).bind fun e => FileFormat.all.find? (·.extensions.contains e)

/-- The path with an end behind its last name. -/
def withExtension? (path ending : String) : Option String :=
  let p := FileTree.Path.ofText path
  match p.names.getLast? with
  | none => none
  | some name =>
    if name = ".." then none
    else
      let names := p.names.dropLast ++ [name ++ "." ++ ending]
      some ((if p.isAbsolute then "/" else "") ++ String.intercalate "/" names)

/-- The paths that are tried where a path leads to no file, with their formats. -/
def candidates (readers : Readers) (path : String) : List (String × FileFormat) :=
  readers.order.flatMap fun format =>
    (format.extensions.filterMap (withExtension? path)).map fun p => (p, format)

/-- The file that a path leads to, and its format. -/
def findFile (readers : Readers) (tree : FileTree) (path : String) :
    Except SettingsFault (String × FileFormat) :=
  if tree.isFile path then
    match ((FileTree.Path.ofText path).names.getLast?).bind formatOf? with
    | some format => .ok (path, format)
    | none => .error (.unknownFormat path)
  else
    match (candidates readers path).find? fun c => tree.isFile c.1 with
    | some found => .ok found
    | none => .error (.noSource path)

/-! ## JSON -/

/-- Lists and records may be nested less deep than this. -/
def jsonNestingLimit : Nat := 128

def numberTree : Number → Tree
  | .natural n => if n < 2 ^ 63 then .int n else .float (UInt64.ofNat n).toFloat
  | .negative n => .int n
  | .float x => .float x

mutual

/-- A value without faults as a tree. Of entries with one key the last counts. -/
def treeOfFound? : Nat → Found → Option Tree
  | _, .null => some .null
  | _, .bool b => some (.bool b)
  | _, .number (.ok n) => some (numberTree n)
  | _, .text (.ok s) => some (.text s)
  | depth + 1, .list items none => (treesOfItems? depth items).map .list
  | depth + 1, .record members none => (entriesOfMembers? depth members []).map .table
  | _, _ => none

def treesOfItems? : Nat → List Found → Option (List Tree)
  | _, [] => some []
  | depth, item :: items => do
    return (← treeOfFound? depth item) :: (← treesOfItems? depth items)

def entriesOfMembers? : Nat → List Member → List (String × Tree) → Option (List (String × Tree))
  | _, [], entries => some entries
  | depth, .field (.ok key) value :: members, entries => do
    let tree ← treeOfFound? depth value
    entriesOfMembers? depth members (updateKey key (fun _ => tree) entries)
  | _, _, _ => none

end

/-- The entries of a text that is one JSON record. -/
def readJson? (cs : List Char) : Option (List (String × Tree)) :=
  match Found.read cs with
  | (found, some rest) =>
    if skipSpace rest = [] then
      match treeOfFound? (jsonNestingLimit - 1) found with
      | some (.table entries) => some entries
      | _ => none
    else none
  | (_, none) => none

/-! ## Files -/

def Readers.readText? (readers : Readers) (format : FileFormat) (s : String) :
    Option (List (String × Tree)) :=
  match format with
  | .toml => Toml.read? s.toList
  | .json => readJson? s.toList
  | format => readers.read? format s

def fileLayer (readers : Readers) (tree : FileTree) (path : String) :
    Except SettingsFault (List (String × Tree)) :=
  match findFile readers tree path with
  | .error e => .error e
  | .ok (path, format) =>
    match tree.read path with
    | .error _ => .error (.noSource path)
    | .ok content =>
      match (String.fromUTF8? content).bind (readers.readText? format) with
      | some entries => .ok entries
      | none => .error (.malformed path)

end DenseBench.Settings
