import DenseBench.Run.Bench
import DenseBench.Settings.File

/-!
# Machines

What the program asks of the machine that it runs on. The same text of the program runs on a real
machine and on a stage: surroundings that are known beforehand, with a record of all that is done
there.
-/

namespace DenseBench.Run

open Calendar

class Machine (m : Type → Type) extends Storage m where
  /-- The seed of a run that is given none. -/
  freshSeed : m UInt64
  pool : m (Nat → Schedule)
  /-- Why the machine makes no pool of so many threads, or of its own number of them. -/
  refusal : m (Option UInt64 → Option String)
  /-- Clock readings at the two ends of the measured part. -/
  started : m Instant
  stopped : m Instant
  now : m Timestamp
  host : m Host
  print : String → m Unit
  /-- Says something on the stream for errors. -/
  complain : String → m Unit
  readers : m Settings.Readers
  /-- The files that stand where these paths lead. -/
  look : List String → m FileTree

/-! ## Stages -/

/-- What a command meets on the machine that it runs on. -/
structure Surroundings where
  freshSeed : UInt64
  pool : Nat → Schedule
  refusal : Option UInt64 → Option String := fun _ => none
  started : Instant
  stopped : Instant
  now : Timestamp
  host : Host
  readers : Settings.Readers := {}

/-- What a command does outside of itself: it prints a text, or it writes a file, which leaves these
files, also if the write fails. -/
inductive Deed
  | print (text : String)
  | write (files : FileTree)

def Deed.printed : Deed → String
  | print text => text
  | write _ => ""

def Deed.files (before : FileTree) : Deed → FileTree
  | print _ => before
  | write files => files

/-- The files as they stand, and what was done and said so far, one thing after the other. -/
structure Scene where
  files : FileTree
  deeds : List Deed := []
  complaint : String := ""

namespace Scene

def print (scene : Scene) (text : String) : Scene :=
  { scene with deeds := scene.deeds ++ [.print text] }

def write (scene : Scene) (files : FileTree) : Scene :=
  { scene with files := files, deeds := scene.deeds ++ [.write files] }

def complain (scene : Scene) (text : String) : Scene :=
  { scene with complaint := scene.complaint ++ text }

end Scene

abbrev Stage :=
  ReaderT Surroundings (StateM Scene)

namespace Stage

/-- An action on files, played on the files of the scene. -/
def onFiles {β : Type} (action : FileTree → β × FileTree) : Stage β :=
  fun _ scene => ((action scene.files).1, scene.write (action scene.files).2)

def ask {β : Type} (answer : Surroundings → β) : Stage β :=
  fun around scene => (answer around, scene)

instance : Machine Stage where
  write path content := onFiles (·.write path content)
  append path added := onFiles (·.append path added)
  freshSeed := ask (·.freshSeed)
  pool := ask (·.pool)
  refusal := ask (·.refusal)
  started := ask (·.started)
  stopped := ask (·.stopped)
  now := ask (·.now)
  host := ask (·.host)
  print text := fun _ scene => ((), scene.print text)
  complain text := fun _ scene => ((), scene.complain text)
  readers := ask (·.readers)
  look _ := fun _ scene => (scene.files, scene)

end Stage

end DenseBench.Run
