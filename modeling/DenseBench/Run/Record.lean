import DenseBench.Calendar.Timestamp
import DenseBench.Csv
import DenseBench.Engine
import DenseBench.FileTree
import DenseBench.Run.Host
import DenseBench.Run.Config

/-!
# Records of runs

The outcome of one run with all that is needed to repeat it, as a JSON document of its own and as a
line in a table of comma-separated fields that grows by one line a run.
-/

namespace DenseBench.Run

open Text Json Calendar

structure Record where
  script : String
  engine : EngineKind
  dtype : ElementType
  sizes : List UInt64
  elapsedSecs : Float
  seed : UInt64
  summary : String
  timestamp : Timestamp
  host : Host

namespace Record

def sizeLabel (r : Record) : String :=
  Run.sizeLabel r.sizes

/-! ## JSON -/

def toJson (r : Record) : Value :=
  .record
    [("script", .text r.script), ("engine", .text r.engine.name), ("dtype", .text r.dtype.name),
      ("sizes", .list (r.sizes.map fun n => .word n.toNat)),
      ("elapsed_secs", .number r.elapsedSecs), ("seed", .word r.seed.toNat),
      ("summary", .text r.summary),
      ("timestamp", .text r.timestamp.documentText), ("system_info", r.host.toJson)]

def timestampOf (found : Found) : Except JsonFault Timestamp :=
  match found.toText with
  | .error e => .error e
  | .ok s => match Timestamp.ofText? s with
    | some t => .ok t
    | none => .error .unfit

structure Draft where
  script : Option String := none
  engine : Option EngineKind := none
  dtype : Option ElementType := none
  sizes : Option (List UInt64) := none
  elapsedSecs : Option Float := none
  seed : Option UInt64 := none
  summary : Option String := none
  timestamp : Option Timestamp := none
  host : Option Host := none

def fieldNames : List String :=
  ["script", "engine", "dtype", "sizes", "elapsed_secs", "seed", "summary", "timestamp",
    "system_info"]

namespace Draft

def enter (d : Draft) (name : String) (value : Found) : Except JsonFault Draft :=
  match name with
  | "script" => (Found.fill d.script Found.toText value).map fun x => { d with script := x }
  | "engine" =>
    (Found.fill d.engine (Found.toChoice EngineKind.byName) value).map
      fun x => { d with engine := x }
  | "dtype" =>
    (Found.fill d.dtype (Found.toChoice ElementType.byName) value).map
      fun x => { d with dtype := x }
  | "sizes" =>
    (Found.fill d.sizes (Found.toList Found.toWord) value).map fun x => { d with sizes := x }
  | "elapsed_secs" =>
    (Found.fill d.elapsedSecs Found.toFloat value).map fun x => { d with elapsedSecs := x }
  | "seed" => (Found.fill d.seed Found.toWord value).map fun x => { d with seed := x }
  | "summary" => (Found.fill d.summary Found.toText value).map fun x => { d with summary := x }
  | "timestamp" => (Found.fill d.timestamp timestampOf value).map fun x => { d with timestamp := x }
  | "system_info" => (Found.fill d.host Host.ofJson value).map fun x => { d with host := x }
  | _ => .ok d

def finish? (d : Draft) : Option Record := do
  return {
    script := ← d.script
    engine := ← d.engine
    dtype := ← d.dtype
    sizes := ← d.sizes
    elapsedSecs := ← d.elapsedSecs
    seed := ← d.seed
    summary := ← d.summary
    timestamp := ← d.timestamp
    host := ← d.host }

end Draft

def ofJson (found : Found) : Except JsonFault Record :=
  match found.enterAll fieldNames Draft.enter {} with
  | .error e => .error e
  | .ok draft => match draft.finish? with
    | some r => .ok r
    | none => .error .unfit

/-- Writes the record as a document, in place of whatever the file held. -/
def save {m : Type → Type} [Monad m] [Storage m] (r : Record) (path : String) :
    ExceptT Error m Unit :=
  ExceptT.mk ((Except.mapError fun stop => .file stop.fault) <$>
    Storage.write path r.toJson.toText.toUTF8)

def load (path : String) (tree : FileTree) : Except Error Record :=
  match tree.readText path with
  | .error e => .error (.file e)
  | .ok s => (decodeText ofJson s).mapError .json

/-! ## Tables -/

def columnNames : List String :=
  ["timestamp", "script", "engine", "dtype", "size", "elapsed_secs", "seed", "summary", "hostname",
    "cpu_threads", "git_commit"]

def columns (r : Record) : List String :=
  [r.timestamp.fieldText, r.script, r.engine.name, r.dtype.name, r.sizeLabel,
    Decimal.Layout.field.render r.elapsedSecs, numeralText r.seed.toNat, r.summary, r.host.hostname,
    numeralText r.host.cpuThreads.toNat, r.host.shortCommit]

def csvLine (fields : List String) : String :=
  String.ofList (Csv.writeRecord (fields.map String.toList))

/-- What one more run adds to a table: its line, below the header if there is nothing yet. -/
def csvAddition (r : Record) (isEmpty : Bool) : String :=
  (if isEmpty then csvLine columnNames else "") ++ csvLine r.columns

/-- Adds the record to the end of a table. What breaks off while fields are still to come is a fault
of the table's writer. -/
def appendCsv {m : Type → Type} [Monad m] [Storage m] (r : Record) (path : String) :
    ExceptT Error m Unit :=
  ExceptT.mk
    ((Except.mapError fun stop => if stop.early then .csv stop.fault else .file stop.fault) <$>
      Storage.append path fun isEmpty => (r.csvAddition isEmpty).toUTF8)

/-- Writes the record to whichever files are named, the document first. -/
def writeTo {m : Type → Type} [Monad m] [Storage m] (r : Record) (json csv : Option String) :
    ExceptT Error m Unit := do
  json.forM r.save
  csv.forM r.appendCsv

end Record

end DenseBench.Run
