import DenseBench.Run.Host
import DenseBench.Text.Character
import DenseBench.Text.Numeral

/-!
# Facts about a host

Hosts from the texts in which a system describes itself: lines of a key and a value with a mark
between them. What is not told is unknown or zero.
-/

namespace DenseBench.Run.HostFacts

open Text

/-- The value on a line, without blanks and quotes around it, if the line has the key. -/
def valueOn? (mark : Char) (key : String) (line : List Char) : Option String :=
  if trim (line.takeWhile (· ≠ mark)) = key.toList then
    match line.dropWhile (· ≠ mark) with
    | _ :: value => some (String.ofList ((trim value).filter (· ≠ '"')))
    | [] => none
  else none

def values (mark : Char) (key text : String) : List String :=
  (text.toList.splitOn '\n').filterMap (valueOn? mark key)

def first? (mark : Char) (key text : String) : Option String :=
  (values mark key text).head?

def numberOf (value : Option String) : Nat :=
  digitsValue ((value.getD "").toList.takeWhile Char.isDigit)

def unknown : String := "Unknown"

structure Texts where
  hostname : String
  release : String
  processors : String
  memory : String

/-- A host from the system's texts and the commit of the checkout. -/
def describe (texts : Texts) (commit : String) : Host where
  hostname := String.ofList (trim texts.hostname.toList)
  os := String.ofList (trim (((first? '=' "NAME" texts.release).getD unknown).toList ++
    ' ' :: ((first? '=' "VERSION_ID" texts.release).getD "").toList))
  cpuModel := (first? ':' "model name" texts.processors).getD unknown
  cpuCores := UInt64.ofNat (numberOf (first? ':' "cpu cores" texts.processors))
  cpuThreads := UInt64.ofNat (values ':' "processor" texts.processors).length
  totalMemoryMb := UInt64.ofNat (numberOf (first? ':' "MemTotal" texts.memory) / 1024)
  gitCommit := commit
  gitDirty := false

/-- What the head of a checkout says: the file that holds its commit, or the commit itself. -/
def headTarget (head : String) : String ⊕ String :=
  match first? ':' "ref" head with
  | some file => .inl file
  | none => .inr (String.ofList (trim head.toList))

end DenseBench.Run.HostFacts
