import DenseBench.Engine
import DenseBench.Text.Character

/-!
# Settings and run configurations

The settings are what every run of a process shares: the engine and the element type that a run uses
unless its options say otherwise, and where results go. A configuration is everything that one run
needs to know. It is made from command-line options over the settings; of several options of one kind
the last counts, and all are checked.
-/

namespace DenseBench

/-- Files that results are written to, if any. -/
structure Output where
  json : Option String := none
  csv : Option String := none
  deriving DecidableEq, Repr

structure Settings where
  engine : EngineKind := .reference
  dtype : ElementType := .float64
  threads : Option UInt64 := none
  seed : Option UInt64 := none
  logLevel : String := "info"
  output : Output := {}
  deriving DecidableEq, Repr

namespace Run

open Text

/-! ## Sizes

The sizes of a run in the form `N*I*…`. Blanks around a size and underscores anywhere in it do not
count; a size is a positive 64-bit word. -/

def parseSize (spec : String) (part : List Char) : Except Error UInt64 :=
  let part := (trim part).filter (· ≠ '_')
  match readUnsigned? wordLimit part with
  | none => .error (.invalidSize (.notNumber spec (String.ofList part)))
  | some 0 => .error (.invalidSize (.notPositive spec))
  | some n => .ok (UInt64.ofNat n)

def parseSizes (spec : String) : Except Error (List UInt64) :=
  (spec.toList.splitOn '*').mapM (parseSize spec)

def sizeLabel (sizes : List UInt64) : String :=
  String.intercalate "*" (sizes.map fun n => numeralText n.toNat)

/-! ## Configurations -/

structure Config where
  script : String
  sizes : List UInt64
  dtype : ElementType
  engine : EngineKind
  seed : Option UInt64 := none
  threads : Option UInt64 := none
  json : Option String := none
  csv : Option String := none
  deriving DecidableEq, Repr

namespace Config

/-- The configuration, if it has sizes and all are positive. -/
def checked (config : Config) : Except Error Config :=
  if config.sizes.isEmpty then .error (.invalidSize (.noneGiven config.script))
  else if config.sizes.contains 0 then .error (.invalidSize (.zeroGiven config.script))
  else .ok config

def sizeLabel (config : Config) : String :=
  Run.sizeLabel config.sizes

end Config

inductive Choice
  | sizes (sizes : List UInt64)
  | dtype (dtype : ElementType)
  | engine (kind : EngineKind)
  | seed (seed : UInt64)
  | threads (count : UInt64)
  | json (path : String)
  | csv (path : String)
  | settingsFile (path : String)
  deriving DecidableEq, Repr

namespace Choice

/-- The key and the value of `--key=value`, cut at the first equals sign. -/
def keyValue? (argument : String) : Option (String × String) :=
  match argument.toList with
  | '-' :: '-' :: rest =>
    match rest.dropWhile (· ≠ '=') with
    | _ :: value => some (String.ofList (rest.takeWhile (· ≠ '=')), String.ofList value)
    | [] => none
  | _ => none

def parseNumber (key value : String) : Except Error UInt64 :=
  match readUnsigned? wordLimit value.toList with
  | some n => .ok (UInt64.ofNat n)
  | none => .error (.invalidArgument (.notNumber key value))

def ofKeyValue (key value : String) : Except Error Choice :=
  match key with
  | "size" => (parseSizes value).map sizes
  | "dtype" => (ElementType.parse value).map dtype
  | "bohrium" | "engine" => (EngineKind.parse value).map engine
  | "seed" => (parseNumber key value).map seed
  | "threads" => (parseNumber key value).map threads
  | "json" => .ok (json value)
  | "csv" => .ok (csv value)
  | "config" => .ok (settingsFile value)
  | _ => .error (.invalidArgument (.unknownOption key))

def parse (argument : String) : Except Error Choice :=
  match keyValue? argument with
  | some (key, value) => ofKeyValue key value
  | none => .error (.invalidArgument (.noKeyValue argument))

/-- The configuration with the choice made. The settings file has been read before. -/
def apply (config : Config) : Choice → Config
  | sizes s => { config with sizes := s }
  | dtype t => { config with dtype := t }
  | engine k => { config with engine := k }
  | seed s => { config with seed := some s }
  | threads n => { config with threads := some n }
  | json path => { config with json := some path }
  | csv path => { config with csv := some path }
  | settingsFile _ => config

end Choice

namespace Config

/-- What the settings say, and the default sizes. -/
def ofSettings (script : String) (settings : Settings) (defaultSizes : List UInt64) : Config where
  script := script
  sizes := defaultSizes
  dtype := settings.dtype
  engine := settings.engine
  seed := settings.seed
  threads := settings.threads
  json := settings.output.json
  csv := settings.output.csv

def ofOptions (script : String) (options : List String) (settings : Settings)
    (defaultSizes : List UInt64) : Except Error Config :=
  match options.mapM Choice.parse with
  | .ok choices => (choices.foldl Choice.apply (ofSettings script settings defaultSizes)).checked
  | .error e => .error e

end Config

end Run

end DenseBench
