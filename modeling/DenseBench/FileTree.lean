import DenseBench.Error

/-!
# File trees

The files and folders of a machine, as a value: paths are followed name by name, and what goes wrong
on the way is a fault of its kind. A machine may also refuse to open a file that could be written,
or break off in the middle of a write.
-/

/- Byte arrays are compared as the core library does, whatever other instance is in scope. -/
attribute [instance (high + 1)] ByteArray.instDecidableEq

namespace DenseBench

inductive FileNode
  | file (content : ByteArray)
  | folder
  deriving DecidableEq

/-- What a machine does to a write instead of carrying it out: it does not open the file, or it
opens the file and no more than some bytes get into it. What breaks off early does so while the
writer holds bytes back that it has not passed on. -/
inductive Mishap
  | refused (fault : FileFault)
  | brokenOff (written : ByteArray) (early : Bool) (fault : FileFault)

/-- Why a write has failed. -/
structure Stop where
  fault : FileFault
  early : Bool := false

/-- Nodes by the names that lead to them from the root. -/
structure FileTree where
  nodes : List (List String × FileNode) := []
  /-- Where relative paths start. -/
  workingFolder : List String := ["work"]
  /-- What goes wrong, if anything, when the file at a place is to hold the given bytes. -/
  mishap? : List String → ByteArray → Option Mishap := fun _ _ => none

namespace FileTree

/-- The working folder is always there, and so are those on the way to it. -/
def node? (tree : FileTree) (names : List String) : Option FileNode :=
  if names.isPrefixOf tree.workingFolder then some .folder else tree.nodes.lookup names

def replace (names : List String) (node : FileNode) :
    List (List String × FileNode) → List (List String × FileNode)
  | [] => [(names, node)]
  | entry :: rest =>
    if entry.1 = names then (names, node) :: rest else entry :: replace names node rest

def put (tree : FileTree) (names : List String) (node : FileNode) : FileTree :=
  { tree with nodes := replace names node tree.nodes }

/-- How a path ends: in a name, in a name with a slash behind it, or in a dot. -/
inductive Ending
  | name
  | slash
  | dot
  deriving DecidableEq, Repr

structure Path where
  isAbsolute : Bool
  names : List String
  ending : Ending

namespace Path

def ofText (path : String) : Path :=
  let parts := (path.toList.splitOn '/').map String.ofList
  let steps := parts.filter (· ≠ "")
  ⟨path.toList.head? = some '/', steps.filter (· ≠ "."),
    if steps.getLast? = some "." then .dot
    else if parts.getLast? = some "" then .slash
    else .name⟩

/-- The folder that the path starts in. -/
def start (p : Path) (tree : FileTree) : List String :=
  if p.isAbsolute then [] else tree.workingFolder

/-- Can only a folder stand where the path leads? -/
def wantsFolder (p : Path) : Bool :=
  p.ending ≠ .name

/-- The names that must lead to folders before it is asked what the path leads to: a dot stands in
the folder before it. -/
def way (p : Path) : List String :=
  if p.ending = .dot then p.names else p.names.dropLast

end Path

def longestName : Nat := 255

def longestPath : Nat := 4095

/-- One name further; two points lead back, and at the root nowhere. -/
def stepInto (reached : List String) (name : String) : List String :=
  if name = ".." then reached.dropLast else reached ++ [name]

def lookUp (reached : List String) (name : String) : Except FileFault (List String) :=
  if longestName < name.utf8ByteSize then .error .nameTooLong else .ok (stepInto reached name)

def walk (tree : FileTree) (reached : List String) : List String → Except FileFault (List String)
  | [] => .ok reached
  | name :: rest =>
    match lookUp reached name with
    | .error e => .error e
    | .ok next => match tree.node? next with
      | some .folder => tree.walk next rest
      | some (.file _) => .error .notFolder
      | none => .error .notFound

def parsePath (path : String) : Except FileFault Path :=
  if path.toList.contains '\x00' then .error .nulInName
  else if path = "" then .error .notFound
  else if longestPath < path.utf8ByteSize then .error .nameTooLong
  else .ok (Path.ofText path)

/-- The place that a path leads to. All names but the last must lead to folders. -/
def follow (tree : FileTree) (p : Path) : Except FileFault (List String) :=
  match tree.walk (p.start tree) p.names.dropLast, p.names.getLast? with
  | .error e, _ => .error e
  | .ok folder, none => .ok folder
  | .ok folder, some name => lookUp folder name

/-- The place that a path leads to, and whether only a folder can stand there. -/
def locate (tree : FileTree) (path : String) : Except FileFault (List String × Bool) :=
  match parsePath path with
  | .error e => .error e
  | .ok p => (tree.follow p).map fun place => (place, p.wantsFolder)

def isFile (tree : FileTree) (path : String) : Bool :=
  match tree.locate path with
  | .ok (names, false) => match tree.node? names with
    | some (.file _) => true
    | _ => false
  | _ => false

def has (tree : FileTree) (path : String) : Bool :=
  match tree.locate path with
  | .ok (names, wantsFolder) => match tree.node? names with
    | some .folder => true
    | some (.file _) => !wantsFolder
    | none => false
  | _ => false

def read (tree : FileTree) (path : String) : Except FileFault ByteArray :=
  match tree.locate path with
  | .error e => .error e
  | .ok (names, wantsFolder) =>
    match tree.node? names with
    | none => .error .notFound
    | some .folder => .error .isFolder
    | some (.file content) => if wantsFolder then .error .notFolder else .ok content

def readText (tree : FileTree) (path : String) : Except FileFault String :=
  match tree.read path with
  | .error e => .error e
  | .ok content =>
    match String.fromUTF8? content with
    | some s => .ok s
    | none => .error .notText

/-- Opens a file for writing: its place, and what it holds, if it is there. No file is made where
only a folder can stand, whatever stands there. -/
def openToWrite (tree : FileTree) (path : String) : Except FileFault (List String × ByteArray) :=
  match parsePath path with
  | .error e => .error e
  | .ok p =>
    if p.wantsFolder then
      match tree.walk (p.start tree) p.way with
      | .error e => .error e
      | .ok _ => .error .isFolder
    else
      match tree.follow p with
      | .error e => .error e
      | .ok place =>
        match tree.node? place with
        | none => .ok (place, .empty)
        | some .folder => .error .isFolder
        | some (.file content) => .ok (place, content)

/-- Leaves a file with what it keeps of what it held and with new bytes behind that, as far as the
machine lets them in. -/
def writeBehind (tree : FileTree) (path : String) (kept added : ByteArray → ByteArray) :
    Except Stop Unit × FileTree :=
  match tree.openToWrite path with
  | .error fault => (.error ⟨fault, false⟩, tree)
  | .ok (place, held) =>
    match tree.mishap? place (kept held ++ added held) with
    | none => (.ok (), tree.put place (.file (kept held ++ added held)))
    | some (.refused fault) => (.error ⟨fault, false⟩, tree)
    | some (.brokenOff written early fault) =>
      (.error ⟨fault, early⟩, tree.put place (.file (kept held ++ written)))

/-- Makes the content of a file, whatever it held: it is emptied before it is written. -/
def write (tree : FileTree) (path : String) (content : ByteArray) : Except Stop Unit × FileTree :=
  tree.writeBehind path (fun _ => .empty) fun _ => content

/-- Adds to the end of a file what depends on whether it is empty. -/
def append (tree : FileTree) (path : String) (added : Bool → ByteArray) :
    Except Stop Unit × FileTree :=
  tree.writeBehind path id fun held => added held.isEmpty

/-- The places that names pass on their way, its end included. -/
def places (reached : List String) : List String → List (List String)
  | [] => []
  | name :: rest => stepInto reached name :: places (stepInto reached name) rest

def addFolder (tree : FileTree) (place : List String) : FileTree :=
  if (tree.node? place).isSome then tree else tree.put place .folder

def addFile (tree : FileTree) (path : String) (content : ByteArray) : FileTree :=
  let p := Path.ofText path
  let stops := places (p.start tree) p.names
  match stops.getLast? with
  | some place => (stops.dropLast.foldl addFolder tree).put place (.file content)
  | none => tree

def pathText (names : List String) : String :=
  String.intercalate "/" names

/-- Every file below the working folder by its path from there. -/
def files (tree : FileTree) : List (String × ByteArray) :=
  tree.nodes.filterMap fun
    | (names, .file content) =>
      if tree.workingFolder.isPrefixOf names then
        some (pathText (names.drop tree.workingFolder.length), content)
      else none
    | _ => none

end FileTree

/-- A place to write files to, as the library sees it: a machine's files, or a tree of files. -/
class Storage (m : Type → Type) where
  write : String → ByteArray → m (Except Stop Unit)
  append : String → (Bool → ByteArray) → m (Except Stop Unit)

instance : Storage (StateM FileTree) where
  write path content := fun tree => tree.write path content
  append path added := fun tree => tree.append path added

end DenseBench
