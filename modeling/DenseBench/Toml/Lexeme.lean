import DenseBench.Decimal.Binary64
import DenseBench.Text.Numeral

/-!
# Blanks, comments and strings of TOML

Scanners take the characters of a document from some place on and give those that follow what they
have scanned, or nothing where the text is malformed.
-/

namespace DenseBench.Toml

open Text

def isBlank (c : Char) : Bool :=
  c == ' ' || c == '\t'

def skipBlanks (cs : List Char) : List Char :=
  cs.dropWhile isBlank

/-- Characters that stand for themselves in comments and strings: no ASCII controls but the tab. -/
def isPrintable (c : Char) : Bool :=
  c == '\t' || (32 ≤ c.toNat && c.toNat != 127)

def newline? : List Char → Option (List Char)
  | '\n' :: rest => some rest
  | '\r' :: '\n' :: rest => some rest
  | _ => none

def skipComment : List Char → List Char
  | '#' :: rest => rest.dropWhile isPrintable
  | cs => cs

/-- The rest of a line that holds nothing more but blanks and a comment. -/
def lineEnd? (cs : List Char) : Option (List Char) :=
  match skipComment (skipBlanks cs) with
  | [] => some []
  | cs => newline? cs

def skipLines : Nat → List Char → List Char
  | 0, cs => cs
  | fuel + 1, cs =>
    let cs := skipComment (skipBlanks cs)
    match newline? cs with
    | some rest => skipLines fuel rest
    | none => cs

def hexNumber? (cs : List Char) : Option Nat :=
  cs.foldl (fun n c => do return 16 * (← n) + (← hexValue? c)) (some 0)

/-- The character of an escape by number, which has so many digits. -/
def numbered? (digits : Nat) (cs : List Char) : Option (Char × List Char) :=
  if cs.length < digits then none
  else
    match hexNumber? (cs.take digits) with
    | some n => if n.isValidChar then some (Char.ofNat n, cs.drop digits) else none
    | none => none

/-- The character that an escape stands for, from behind its backslash on. -/
def escape? : List Char → Option (Char × List Char)
  | 'b' :: rest => some ('\x08', rest)
  | 't' :: rest => some ('\t', rest)
  | 'n' :: rest => some ('\n', rest)
  | 'f' :: rest => some ('\x0c', rest)
  | 'r' :: rest => some ('\r', rest)
  | '"' :: rest => some ('"', rest)
  | '\\' :: rest => some ('\\', rest)
  | 'u' :: rest => numbered? 4 rest
  | 'U' :: rest => numbered? 8 rest
  | _ => none

/-- The text of a string on one line, from behind its opening quote on. -/
def basicString? : Nat → List Char → Option (List Char × List Char)
  | 0, _ => none
  | _ + 1, [] => none
  | _ + 1, '"' :: rest => some ([], rest)
  | fuel + 1, '\\' :: rest => do
    let (c, rest) ← escape? rest
    let (s, rest) ← basicString? fuel rest
    return (c :: s, rest)
  | fuel + 1, c :: rest => do
    if !isPrintable c then none
    let (s, rest) ← basicString? fuel rest
    return (c :: s, rest)

/-- The text of a string on one line that knows no escapes. -/
def literalString? (cs : List Char) : Option (List Char × List Char) :=
  let s := cs.takeWhile fun c => isPrintable c && c != '\''
  match cs.drop s.length with
  | '\'' :: rest => some (s, rest)
  | _ => none

/-- The quotes that end a string over several lines: up to two of its own, then three. -/
def closing? (quote : Char) (cs : List Char) : Option (List Char × List Char) :=
  let run := (cs.takeWhile (· == quote)).length
  if run < 3 then none
  else
    let own := min (run - 3) 2
    some (List.replicate own quote, cs.drop (own + 3))

def skipEmptyLines : Nat → List Char → List Char
  | 0, cs => cs
  | fuel + 1, cs =>
    let cs := skipBlanks cs
    match newline? cs with
    | some rest => skipEmptyLines fuel rest
    | none => cs

/-- What a backslash at the end of a line takes with it. -/
def skipContinuation? (cs : List Char) : Option (List Char) :=
  (newline? (skipBlanks cs)).map fun rest => skipEmptyLines rest.length rest

/-- The text of a string over several lines, from behind its opening quotes on. -/
def longString? (quote : Char) : Nat → List Char → Option (List Char × List Char)
  | 0, _ => none
  | fuel + 1, cs =>
    match closing? quote cs with
    | some closed => some closed
    | none =>
      match newline? cs with
      | some rest => (longString? quote fuel rest).map fun r => ('\n' :: r.1, r.2)
      | none =>
        match cs with
        | [] => none
        | c :: rest =>
          if c = '\\' ∧ quote = '"' then
            match escape? rest with
            | some (c, rest) => (longString? quote fuel rest).map fun r => (c :: r.1, r.2)
            | none => match skipContinuation? rest with
              | some rest => longString? quote fuel rest
              | none => none
          else if isPrintable c then (longString? quote fuel rest).map fun r => (c :: r.1, r.2)
          else none

def string? (cs : List Char) : Option (String × List Char) :=
  let start (cs : List Char) : List Char := (newline? cs).getD cs
  let scanned := match cs with
    | '"' :: '"' :: '"' :: rest => longString? '"' (rest.length + 1) (start rest)
    | '\'' :: '\'' :: '\'' :: rest => longString? '\'' (rest.length + 1) (start rest)
    | '"' :: rest => basicString? (rest.length + 1) rest
    | '\'' :: rest => literalString? rest
    | _ => none
  scanned.map fun r => (String.ofList r.1, r.2)

def isBareKeyChar (c : Char) : Bool :=
  c.isAlphanum || c == '_' || c == '-'

def keyPart? (cs : List Char) : Option (String × List Char) :=
  match cs with
  | '"' :: rest => (basicString? (rest.length + 1) rest).map fun r => (String.ofList r.1, r.2)
  | '\'' :: rest => (literalString? rest).map fun r => (String.ofList r.1, r.2)
  | _ =>
    let key := cs.takeWhile isBareKeyChar
    if key.isEmpty then none else some (String.ofList key, cs.drop key.length)

/-- Lists, tables and keys may lead less deep than this. -/
def nestingLimit : Nat := 80

/-- The parts of a key with points between them, and blanks around each: at most so many. -/
def keyParts? : Nat → List Char → Option (List String × List Char)
  | 0, _ => none
  | parts + 1, cs => do
    let (part, rest) ← keyPart? (skipBlanks cs)
    match skipBlanks rest with
    | '.' :: rest =>
      let (more, rest) ← keyParts? parts rest
      return (part :: more, rest)
    | rest => return ([part], rest)

def key? (cs : List Char) : Option (List String × List Char) :=
  keyParts? (nestingLimit - 1) cs

end DenseBench.Toml
