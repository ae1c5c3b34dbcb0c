import DenseBench.Decimal.Layout
import DenseBench.Run.Config
import DenseBench.Settings.Environment
import DenseBench.Settings.File

/-!
# Loading settings

Three layers one over the other, defaults, file and environment, merged into one tree, and the
settings read out of the tree. A value that is not of the wanted type is taken as far as it stands
for one: a text may be a number, a number may be a text.
-/

namespace DenseBench.Settings

open Text

namespace Tree

def greatestWord : Nat := wordLimit - 1

/-- The 64-bit word nearest to a number, a half away from zero. -/
def nearestWord (x : Float) : Nat :=
  match Decimal.parts x with
  | .nan => 0
  | .infinite negative => if negative then 0 else greatestWord
  | .finite negative m q =>
    if negative then 0
    else
      let halves := if 0 ≤ q then m * 2 ^ q.toNat * 2 else m * 2 / 2 ^ (-q).toNat
      min ((halves + 1) / 2) greatestWord

/-- Words that stand for the numbers one and zero. -/
def truthWords : List (String × Nat) :=
  [("true", 1), ("on", 1), ("yes", 1), ("false", 0), ("off", 0), ("no", 0)]

def wordOfText? (s : String) : Option Nat :=
  match truthWords.lookup (lowerKey s) with
  | some n => some n
  | none => readUnsigned? wordLimit s.toList

def toWord : Tree → Except SettingsFault UInt64
  | int n => if 0 ≤ n then .ok (UInt64.ofNat n.toNat) else .error .wrongType
  | float x => .ok (UInt64.ofNat (nearestWord x))
  | bool b => .ok (if b then 1 else 0)
  | text s =>
    match wordOfText? s with
    | some n => .ok (UInt64.ofNat n)
    | none => .error .wrongType
  | _ => .error .wrongType

def toText : Tree → Except SettingsFault String
  | text s => .ok s
  | bool b => .ok (if b then "true" else "false")
  | int n => .ok (integerText n)
  | float x => .ok (Decimal.Layout.plain.render x)
  | _ => .error .wrongType

/-- One of several choices by its name in any letter case. The one key of a table may be the
name. -/
def toChoice {β : Type} (choices : List (String × β)) : Tree → Except SettingsFault β
  | text name | table [(name, _)] =>
    match choices.lookup (lowerKey name) with
    | some x => .ok x
    | none => .error (.unknownChoice name)
  | _ => .error .wrongForm

/-- Nothing for a null and for what is missing. -/
def toOptional {β : Type} (decode : Tree → Except SettingsFault β) :
    Option Tree → Except SettingsFault (Option β)
  | none | some null => .ok none
  | some t => (decode t).map some

/-- A value that has to be there. -/
def toRequired {β : Type} (decode : Tree → Except SettingsFault β) :
    Option Tree → Except SettingsFault β
  | none => .error .wrongForm
  | some t => decode t

def toOutput : Tree → Except SettingsFault Output
  | table entries => do
    return ⟨← toOptional toText (entries.lookup "json"), ← toOptional toText (entries.lookup "csv")⟩
  | list items => do
    return ⟨← toOptional toText items[0]?, ← toOptional toText items[1]?⟩
  | _ => .error .wrongForm

end Tree

def ofTree (tree : Tree) : Except SettingsFault Settings := do
  let value (key : String) : Option Tree := tree.entries.lookup key
  return {
    engine := ← Tree.toRequired (Tree.toChoice EngineKind.byName) (value "engine")
    dtype := ← Tree.toRequired (Tree.toChoice ElementType.byName) (value "dtype")
    threads := ← Tree.toOptional Tree.toWord (value "threads")
    seed := ← Tree.toOptional Tree.toWord (value "seed")
    logLevel := ← Tree.toRequired Tree.toText (value "log_level")
    output := ← match value "output" with
      | some t => t.toOutput
      | none => .ok {} }

/-- What holds where no other layer says anything. -/
def defaultLayer : List (String × Tree) :=
  let d : Settings := {}
  [("engine", .text d.engine.name), ("dtype", .text d.dtype.name), ("log_level", .text d.logLevel)]

/-- The file that is read from the working folder, if it is there and no other one is named. -/
def defaultFile : String := "arraybench.toml"

/-- What the file named by a path says, or else the default file. -/
def chosenFileLayer (readers : Readers) (tree : FileTree) :
    Option String → Except SettingsFault (List (String × Tree))
  | some path => fileLayer readers tree path
  | none => if tree.has defaultFile then fileLayer readers tree defaultFile else .ok []

/-- The three layers merged, the environment over the file over the defaults. -/
def merged (file environment : List (String × Tree)) : Tree :=
  (((Tree.table []).overlay defaultLayer).overlay file).overlay environment

def load (readers : Readers) (tree : FileTree) (path : Option String)
    (environment : List (String × String)) : Except Error Settings :=
  match chosenFileLayer readers tree path with
  | .error e => .error (.settings e)
  | .ok file => (ofTree (merged file (environmentLayer environment))).mapError .settings

end DenseBench.Settings
