import DenseBench.CommandLine
import DenseBench.Run.HostFacts
import Std.Time.DateTime.Timestamp

/-!
# The program

The command line on a real machine: arguments, environment, clocks, chance and files.
-/

namespace DenseBench.Program

open Run

def readText (path : String) : IO String := do
  match ← (IO.FS.readBinFile path).toBaseIO with
  | .ok content => return (String.fromUTF8? content).getD ""
  | .error _ => return ""

/-! ## Files -/

def nodeAt (place : List String) : IO (Option FileNode) := do
  match ← (IO.FS.readBinFile ("/" ++ FileTree.pathText place)).toBaseIO with
  | .ok content => return some (.file content)
  | .error (.noFileOrDirectory ..) => return none
  | .error (.inappropriateType ..) => return some .folder
  | .error _ => return none

/-- What stands at the places that the paths lead over. -/
def look (paths : List String) : IO FileTree := do
  let here := FileTree.Path.ofText (← IO.currentDir).toString
  let start : FileTree := { workingFolder := here.names }
  let places := paths.flatMap fun path =>
    let p := FileTree.Path.ofText path
    FileTree.places (p.start start) p.names
  places.foldlM (fun tree place => do
    match ← nodeAt place with
    | some node => return tree.put place node
    | none => return tree) start

def attempt (action : IO Unit) : IO (Except Stop Unit) := do
  match ← action.toBaseIO with
  | .ok () => return .ok ()
  | .error e => return .error ⟨.machine (toString e), false⟩

def write (path : String) (content : ByteArray) : IO (Except Stop Unit) :=
  attempt do
    let file ← IO.FS.Handle.mk path .write
    file.write content
    file.flush

def append (path : String) (added : Bool → ByteArray) : IO (Except Stop Unit) :=
  attempt do
    let file ← IO.FS.Handle.mk path .append
    let held ← IO.FS.Handle.mk path .read
    file.write (added (← held.read 1).isEmpty)
    file.flush

/-! ## Surroundings -/

def environment : IO (List (String × String)) := do
  let entries := (← readText "/proc/self/environ").splitOn "\x00"
  return entries.filterMap fun entry =>
    match entry.toList.dropWhile (· ≠ '=') with
    | _ :: value => some (String.ofList (entry.toList.takeWhile (· ≠ '=')), String.ofList value)
    | [] => none

def freshSeed : IO UInt64 := do
  return (← IO.getRandomBytes 8).foldl (fun seed byte => seed <<< 8 ||| byte.toUInt64) 0

def now : IO Calendar.Timestamp := do
  let t := (← Std.Time.Timestamp.now).val
  return ⟨t.second.val, t.nano.val.toNat⟩

def commitHere : IO String := do
  let roots := (List.range 16).map fun depth => String.join (List.replicate depth "../") ++ ".git/"
  let heads ← roots.mapM fun root => return (root, ← readText (root ++ "HEAD"))
  match heads.find? fun h => h.2 ≠ "" with
  | none => return "unknown"
  | some (root, head) =>
    match HostFacts.headTarget head with
    | .inr commit => return commit
    | .inl file => return String.ofList (Text.trim (← readText (root ++ file)).toList)

def host : IO Host := do
  let texts : HostFacts.Texts := {
    hostname := ← readText "/proc/sys/kernel/hostname"
    release := ← readText "/etc/os-release"
    processors := ← readText "/proc/cpuinfo"
    memory := ← readText "/proc/meminfo" }
  return HostFacts.describe texts (← commitHere)

instance : Machine IO where
  write := write
  append := append
  freshSeed := freshSeed
  pool := return fun _ => .sequential
  refusal := return fun _ => none
  started := IO.monoNanosNow
  stopped := IO.monoNanosNow
  now := now
  host := host
  print := IO.print
  complain := IO.eprint
  readers := return {}
  look := look

end DenseBench.Program

open DenseBench in
def main (arguments : List String) : IO UInt32 := do
  CommandLine.performProgram (← Program.environment) ("arraybench" :: arguments)
