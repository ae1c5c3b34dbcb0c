import DenseBench.Json.Decode
import DenseBench.Json.Printer

/-!
# Hosts

The machine and the checkout that a run was measured on.
-/

namespace DenseBench.Run

open Json

structure Host where
  hostname : String
  os : String
  cpuModel : String
  cpuCores : UInt64
  cpuThreads : UInt64
  totalMemoryMb : UInt64
  gitCommit : String
  gitDirty : Bool
  deriving DecidableEq, Repr

namespace Host

/-- Eight characters of the commit, and a mark if the checkout had changes. -/
def shortCommit (host : Host) : String :=
  String.ofList (host.gitCommit.toList.take 8) ++ if host.gitDirty then "+dirty" else ""

def toJson (host : Host) : Value :=
  .record
    [("hostname", .text host.hostname), ("os", .text host.os), ("cpu_model", .text host.cpuModel),
      ("cpu_cores", .word host.cpuCores.toNat), ("cpu_threads", .word host.cpuThreads.toNat),
      ("total_memory_mb", .word host.totalMemoryMb.toNat), ("git_commit", .text host.gitCommit),
      ("git_dirty", .bool host.gitDirty)]

structure Draft where
  hostname : Option String := none
  os : Option String := none
  cpuModel : Option String := none
  cpuCores : Option UInt64 := none
  cpuThreads : Option UInt64 := none
  totalMemoryMb : Option UInt64 := none
  gitCommit : Option String := none
  gitDirty : Option Bool := none

def fieldNames : List String :=
  ["hostname", "os", "cpu_model", "cpu_cores", "cpu_threads", "total_memory_mb", "git_commit",
    "git_dirty"]

namespace Draft

def enter (d : Draft) (name : String) (value : Found) : Except JsonFault Draft :=
  match name with
  | "hostname" => (Found.fill d.hostname Found.toText value).map fun x => { d with hostname := x }
  | "os" => (Found.fill d.os Found.toText value).map fun x => { d with os := x }
  | "cpu_model" => (Found.fill d.cpuModel Found.toText value).map fun x => { d with cpuModel := x }
  | "cpu_cores" => (Found.fill d.cpuCores Found.toWord value).map fun x => { d with cpuCores := x }
  | "cpu_threads" =>
    (Found.fill d.cpuThreads Found.toWord value).map fun x => { d with cpuThreads := x }
  | "total_memory_mb" =>
    (Found.fill d.totalMemoryMb Found.toWord value).map fun x => { d with totalMemoryMb := x }
  | "git_commit" =>
    (Found.fill d.gitCommit Found.toText value).map fun x => { d with gitCommit := x }
  | "git_dirty" => (Found.fill d.gitDirty Found.toBool value).map fun x => { d with gitDirty := x }
  | _ => .ok d

def finish? (d : Draft) : Option Host := do
  return {
    hostname := ← d.hostname
    os := ← d.os
    cpuModel := ← d.cpuModel
    cpuCores := ← d.cpuCores
    cpuThreads := ← d.cpuThreads
    totalMemoryMb := ← d.totalMemoryMb
    gitCommit := ← d.gitCommit
    gitDirty := ← d.gitDirty }

end Draft

def ofJson (found : Found) : Except JsonFault Host :=
  match found.enterAll fieldNames Draft.enter {} with
  | .error e => .error e
  | .ok draft => match draft.finish? with
    | some host => .ok host
    | none => .error .unfit

end Host

end DenseBench.Run
