import DenseBench.Double
import DenseBench.Run.Machine
import DenseBench.Settings.Load
import DenseBench.Settings.LogFilter
import DenseBench.SymbolTable
import DenseBench.Workload

/-!
# The command line

What the program does with its arguments: which settings file it reads, which command it carries
out, what it prints and which files it changes. A run prints its report before it touches a file.
All of it is written for any machine; what it does on a stage is told by its aftermath.
-/

namespace DenseBench.CommandLine

open Text Run Calendar

/-- Options that all commands share start in this way. -/
def settingsOption : List Char :=
  "--config=".toList

/-- The settings file that the arguments name; of several the first counts. -/
def settingsPath? (arguments : List String) : Option String :=
  arguments.findSome? fun argument =>
    if settingsOption.isPrefixOf argument.toList then
      some (String.ofList (argument.toList.drop settingsOption.length))
    else none

inductive Command
  | usage
  | list
  | measure (name : String) (options : List String)
  deriving DecidableEq, Repr

/-- The command that the arguments ask for. The first of them is the name of the program. -/
def Command.ofArguments : List String → Command
  | _ :: "help" :: _ | _ :: "--help" :: _ | _ :: "-h" :: _ => usage
  | _ :: "list" :: _ => list
  | _ :: name :: options => measure name options
  | _ => usage

def linesText (lines : List String) : String :=
  String.join (lines.map (· ++ "\n"))

def usageLines : List String :=
  ["usage: arraybench <benchmark> [--size=N*I] [--dtype=float64] [--bohrium=true|false]",
    "                  [--engine=reference|parallel] [--seed=S] [--threads=T]",
    "                  [--config=FILE] [--json=FILE] [--csv=FILE]",
    "       arraybench list"]

/-- A text with blanks behind it up to the given width. -/
def column (width : Nat) (s : String) : String :=
  s ++ String.ofList (List.replicate (width - s.length) ' ')

def workloadLine (w : Workload) : String :=
  "  " ++ column 6 w.name ++ " " ++ w.description ++
    " (default size " ++ sizeLabel w.defaultSizes ++ ")"

def ufuncLine (u : Ufunc) : String :=
  "  " ++ column 14 u.name ++ " nin=" ++ numeralText u.nin ++ " " ++ u.doc

def listLines : List String :=
  let symbols := SymbolTable.exported.entries.map (·.2)
  let ufuncs := symbols.filterMap fun
    | .ufunc u => some u
    | .dtype _ => none
  let types := symbols.filterMap fun
    | .dtype t => some t.name
    | .ufunc _ => none
  "Benchmarks:" :: Workload.all.map workloadLine ++
    ["", "Ufuncs:"] ++ ufuncs.map ufuncLine ++
    ["", "Types:", "  " ++ String.intercalate ", " types]

def plan (name : String) (options : List String) (settings : Settings) :
    Except Error (Workload × Config) :=
  match Workload.find name with
  | .error e => .error e
  | .ok w =>
    match Config.ofOptions w.name options settings w.defaultSizes with
    | .error e => .error e
    | .ok config => .ok (w, config)

/-! ## On any machine -/

section Machine

variable {m : Type → Type} [Monad m] [Machine m]

/-- A run with the clock read at the two ends of its measured part. -/
def measure (w : Workload) (bench : Bench) : ExceptT Error m (Workload.Outcome Float × Bench) :=
  match w.prepare (α := Float) bench with
  | (.error e, _) => throw e
  | (.ok input, bench) => do
    let started ← (Machine.started : m Instant)
    match input.perform (Action.start started bench).2 with
    | (.error e, _) => throw e
    | (.ok outcome, bench) => do
      let stopped ← (Machine.stopped : m Instant)
      match Action.stop stopped bench with
      | (.error e, _) => throw e
      | (.ok _, bench) => return (outcome, bench)

/-- Reports and saves what a run has come to. -/
def conclude (bench : Bench) (outcome : Workload.Outcome Float) : ExceptT Error m (Option Record) :=
  match bench.reportLine with
  | .error e => throw e
  | .ok line => do
    (Machine.print (linesText [line]) : m Unit)
    bench.save outcome.summary Machine.now Machine.host

def performWorkload (name : String) (options : List String) (settings : Settings) :
    ExceptT Error m (Option Record) :=
  match plan name options settings with
  | .error e => throw e
  | .ok (w, config) => do
    let freshSeed ← (Machine.freshSeed : m UInt64)
    let pool ← (Machine.pool : m (Nat → Schedule))
    let refusal ← (Machine.refusal : m (Option UInt64 → Option String))
    match Bench.create config freshSeed pool refusal with
    | .error e => throw e
    | .ok bench => do
      let (outcome, bench) ← measure w bench
      conclude bench outcome

def perform (arguments : List String) (settings : Settings) : ExceptT Error m Unit :=
  match Command.ofArguments arguments with
  | .usage => (Machine.print (linesText usageLines) : m Unit)
  | .list => (Machine.print (linesText listLines) : m Unit)
  | .measure name options => do
    let _ ← performWorkload name options settings
    return ()

def loadingComplaint (e : Error) : String :=
  linesText ["Error loading configuration: " ++ e.message]

def complaint (e : Error) : String :=
  linesText ["Error: " ++ e.message]

/-- What is said about a log filter before a command. -/
def filterComplaint (environment : List (String × String)) (settings : Settings) : String :=
  linesText (Settings.LogFilter.warnings (Settings.LogFilter.chosen environment settings))

/-- The whole program, with the code that it ends with. -/
def performProgram (environment : List (String × String)) (arguments : List String) : m UInt32 := do
  let path := settingsPath? arguments
  let readers ← Machine.readers
  let named := path.getD Settings.defaultFile
  let files ← Machine.look (named :: (Settings.candidates readers named).map (·.1))
  match Settings.load readers files path environment with
  | .error e =>
    Machine.complain (loadingComplaint e)
    return 1
  | .ok settings =>
    Machine.complain (filterComplaint environment settings)
    match ← (perform arguments settings).run with
    | .ok () => return 0
    | .error e =>
      Machine.complain (complaint e)
      return 1

end Machine

/-! ## On a stage -/

/-- The files that a command met, what it did, one thing after the other, and whether it
succeeded. -/
structure Aftermath (β : Type) where
  before : FileTree
  deeds : List Deed
  result : Except Error β

def Aftermath.printed {β : Type} (done : Aftermath β) : String :=
  String.join (done.deeds.map Deed.printed)

def Aftermath.files {β : Type} (done : Aftermath β) : FileTree :=
  done.deeds.foldl Deed.files done.before

def aftermath {β : Type} (action : ExceptT Error Stage β) (around : Surroundings)
    (files : FileTree) : Aftermath β :=
  let (result, scene) := action around { files := files }
  ⟨files, scene.deeds, result⟩

def runWorkload (around : Surroundings) (name : String) (options : List String)
    (settings : Settings) (files : FileTree) : Aftermath (Option Record) :=
  aftermath (performWorkload name options settings) around files

def run (around : Surroundings) (arguments : List String) (settings : Settings)
    (files : FileTree) : Aftermath Unit :=
  aftermath (perform arguments settings) around files

structure Ending where
  code : UInt32
  printed : String
  complaint : String
  files : FileTree

def program (around : Surroundings) (environment : List (String × String))
    (arguments : List String) (files : FileTree) : Ending :=
  let (code, scene) := performProgram (m := Stage) environment arguments around { files := files }
  ⟨code, String.join (scene.deeds.map Deed.printed), scene.complaint, scene.files⟩

end DenseBench.CommandLine
