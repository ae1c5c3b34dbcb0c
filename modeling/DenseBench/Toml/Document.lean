import DenseBench.Settings.Tree
import DenseBench.Text.Character
import DenseBench.Toml.Lexeme
import DenseBench.Toml.Literal

/-!
# TOML documents

Tables under construction and the reading of whole documents. A table remembers whether it has only
been named on the way to another one, and whether that was by a key with points: such tables may
still be opened or added to, all others are closed once they are defined. In the end every table
that begins with the key of a moment gives way to that moment.
-/

namespace DenseBench.Toml

open Text Settings

inductive Item
  | value (v : Tree)
  | table (onTheWay byPoints : Bool) (entries : List (String × Item))
  | tables (all : List (List (String × Item)))

abbrev Entries := List (String × Item)

mutual

def Item.toTree : Item → Tree
  | .value v => v
  | .table _ _ es => .table (entriesToTree es)
  | .tables all => .list (tablesToTree all)

def entriesToTree : Entries → List (String × Tree)
  | [] => []
  | (key, item) :: rest => (key, item.toTree) :: entriesToTree rest

def tablesToTree : List Entries → List Tree
  | [] => []
  | es :: rest => .table (entriesToTree es) :: tablesToTree rest

end

namespace Entries

/-- Changes the item of a key, or adds one, if the change allows it. -/
def alter? (key : String) (change : Option Item → Option Item) : Entries → Option Entries
  | [] => (change none).map fun item => [(key, item)]
  | e :: rest =>
    if e.1 = key then (change (some e.2)).map fun item => (key, item) :: rest
    else (alter? key change rest).map (e :: ·)

def alterLast? (change : Entries → Option Entries) : List Entries → Option (List Entries)
  | [] => none
  | [es] => (change es).map fun es => [es]
  | es :: rest => (alterLast? change rest).map (es :: ·)

/-- Adds a value under a key with points. -/
def addValue? (value : Tree) : List String → Entries → Option Entries
  | [], _ => none
  | [key], es => es.alter? key fun
    | none => some (.value value)
    | some _ => none
  | key :: key' :: path, es => es.alter? key fun
    | none => (addValue? value (key' :: path) []).map (.table true true)
    | some (.table onTheWay byPoints inner) =>
      if onTheWay && (byPoints || !path.isEmpty) then
        (addValue? value (key' :: path) inner).map (.table onTheWay byPoints)
      else none
    | some (.tables all) =>
      if path.isEmpty then none
      else (alterLast? (addValue? value (key' :: path)) all).map .tables
    | some (.value _) => none

/-- Changes the table that a header leads to, through the last of several tables. -/
def atHeader? (change : Entries → Option Entries) : List String → Entries → Option Entries
  | [], es => change es
  | key :: path, es => es.alter? key fun
    | none => (atHeader? change path []).map (.table true false)
    | some (.table onTheWay byPoints inner) =>
      (atHeader? change path inner).map (.table onTheWay byPoints)
    | some (.tables all) => (alterLast? (atHeader? change path) all).map .tables
    | some (.value _) => none

/-- Opens the table of a header, behind all entries that are there. -/
def openTable? (key : String) (es : Entries) : Option Entries :=
  match es.lookup key with
  | none => some (es ++ [(key, .table false false [])])
  | some (.table true false inner) =>
    some (es.filter (·.1 ≠ key) ++ [(key, .table false false inner)])
  | _ => none

/-- Opens one more of several tables. -/
def openNext? (key : String) (es : Entries) : Option Entries :=
  es.alter? key fun
    | none => some (.tables [[]])
    | some (.tables all) => some (.tables (all ++ [[]]))
    | _ => none

end Entries

mutual

/-- A value. Every call takes a character or ends. -/
def value? : Nat → Nat → List Char → Option (Tree × List Char)
  | 0, _, _ => none
  | fuel + 1, depth, cs =>
    match cs with
    | '"' :: _ => (string? cs).map fun r => (.text r.1, r.2)
    | '\'' :: _ => (string? cs).map fun r => (.text r.1, r.2)
    | '[' :: rest => if depth + 1 < nestingLimit then items? fuel (depth + 1) [] rest else none
    | '\x7b' :: rest =>
      if depth + 1 < nestingLimit then
        match skipBlanks rest with
        | '\x7d' :: rest => some (.table [], rest)
        | rest => fields? fuel (depth + 1) [] rest
      else none
    | _ =>
      let (word, rest) := word cs
      (literal? word).map fun v => (v, rest)

/-- The items of a list, those already found in reverse. -/
def items? : Nat → Nat → List Tree → List Char → Option (Tree × List Char)
  | 0, _, _, _ => none
  | fuel + 1, depth, found, cs =>
    match skipLines cs.length cs with
    | ']' :: rest => some (.list found.reverse, rest)
    | cs => do
      let (v, rest) ← value? fuel depth cs
      match skipLines rest.length rest with
      | ',' :: rest => items? fuel depth (v :: found) rest
      | ']' :: rest => return (.list (v :: found).reverse, rest)
      | _ => none

/-- The fields of a table on one line. -/
def fields? : Nat → Nat → Entries → List Char → Option (Tree × List Char)
  | 0, _, _, _ => none
  | fuel + 1, depth, found, cs => do
    let (key, rest) ← key? cs
    let '=' :: rest := rest | none
    let (v, rest) ← value? fuel depth (skipBlanks rest)
    let found ← found.addValue? v key
    match skipBlanks rest with
    | ',' :: rest => fields? fuel depth found (skipBlanks rest)
    | '\x7d' :: rest => return (.table (entriesToTree found), rest)
    | _ => none

end

/-- A key and its value up to the end of the line. -/
def keyValue? (cs : List Char) : Option (List String × Tree × List Char) := do
  let (key, rest) ← key? cs
  let '=' :: rest := rest | none
  let (v, rest) ← value? (3 * rest.length + 3) 0 (skipBlanks rest)
  return (key, v, ← lineEnd? rest)

/-- A header up to the end of the line, and whether it opens one of several tables. -/
def header? (cs : List Char) : Option (Bool × List String × List Char) := do
  match cs with
  | '[' :: '[' :: rest =>
    let (key, rest) ← key? rest
    let ']' :: ']' :: rest := rest | none
    return (true, key, ← lineEnd? rest)
  | '[' :: rest =>
    let (key, rest) ← key? rest
    let ']' :: rest := rest | none
    return (false, key, ← lineEnd? rest)
  | _ => none

/-- The lines of a document, into the table of the header above them. -/
def lines? : Nat → List String → Entries → List Char → Option Entries
  | 0, _, root, cs => if cs.isEmpty then some root else none
  | fuel + 1, current, root, cs =>
    match skipBlanks cs with
    | [] => some root
    | '[' :: rest => do
      let (several, path, rest) ← header? ('[' :: rest)
      let last ← path.getLast?
      let opened ← root.atHeader?
        (if several then Entries.openNext? last else Entries.openTable? last) path.dropLast
      lines? fuel path opened rest
    | cs =>
      match lineEnd? cs with
      | some rest => lines? fuel current root rest
      | none => do
        let (key, v, rest) ← keyValue? cs
        let root ← root.atHeader? (Entries.addValue? v key) current
        lines? fuel current root rest

mutual

/-- A tree with its moments in place of the tables that hold them. Nothing but the text of a moment
may stand under its key; what stands behind it does not count. -/
def withMoments? : Tree → Option Tree
  | .table [] => some (.table [])
  | .table ((key, value) :: rest) =>
    if key = momentKey then
      match value with
      | .text s => (moment? s.toList).map fun normal => .text (String.ofList normal)
      | _ => none
    else do
      return .table ((key, ← withMoments? value) :: (← entriesWithMoments? rest))
  | .list items => (itemsWithMoments? items).map .list
  | v => some v

def entriesWithMoments? : List (String × Tree) → Option (List (String × Tree))
  | [] => some []
  | (key, value) :: rest => do
    return (key, ← withMoments? value) :: (← entriesWithMoments? rest)

def itemsWithMoments? : List Tree → Option (List Tree)
  | [] => some []
  | item :: items => do
    return (← withMoments? item) :: (← itemsWithMoments? items)

end

def read? (cs : List Char) : Option (List (String × Tree)) := do
  let cs := skipMark cs
  let root ← lines? (cs.length + 1) [] [] cs
  match ← withMoments? (.table (entriesToTree root)) with
  | .table entries => return entries
  | _ => none

end DenseBench.Toml
