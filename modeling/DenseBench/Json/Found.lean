import DenseBench.Json.Lexeme

/-!
# What reading a JSON text finds

A text is read as far as it goes. Where it stops being JSON the tree ends in a broken value or an
unclosed list, so that a reader of the tree meets the first fault at its place in the text. A
broken value keeps the fault for one who wants it, the fault for one who passes over it, and its
first character.
-/

namespace DenseBench.Json

mutual

inductive Found
  | null
  | bool (b : Bool)
  | number (value : Except JsonFault Number)
  | text (value : Except JsonFault String)
  | list (items : List Found) (unclosed : Option JsonFault)
  | record (members : List Member) (unclosed : Option JsonFault)
  | broken (wanted passed : JsonFault) (first : Option Char)

/-- A key and its value, or what stands where a key should. -/
inductive Member
  | field (key : Except JsonFault String) (value : Found)
  | stray (found : Found)

end

namespace Found

/-- A value with its end, if it has one: the characters after it. -/
abbrev Read := Found × Option (List Char)

def unfinished (fault : JsonFault) (first : Option Char) : Read :=
  (.broken fault fault first, none)

/-- The rest of a word whose first letter has been seen. -/
def ofWord (value : Found) (first : Char) : List Char → List Char → Read
  | [], rest => (value, some rest)
  | _ :: _, [] => unfinished .endsEarly (some first)
  | w :: word, c :: rest =>
    if w = c then ofWord value first word rest else unfinished .malformed (some first)

def ofString (cs : List Char) : Read :=
  match readString cs.length cs with
  | .ok (s, rest) => (.text (.ok (String.ofList s)), some rest)
  | .error e =>
    match passString cs.length cs with
    | .ok rest => (.text (.error e), some rest)
    | .error p => (.broken e p (some '"'), none)

def ofNumber (positive : Bool) (first : Char) (cs : List Char) : Read :=
  match readNumber positive cs with
  | .ok (n, rest) => (.number (.ok n), some rest)
  | .error e =>
    match passNumber cs with
    | .ok rest => (.number (.error e), some rest)
    | .error p => (.broken e p (some first), none)

mutual

/-- The value at the head of a text. Every call takes a character or ends. -/
def value : Nat → List Char → Read
  | 0, _ => unfinished .endsEarly none
  | fuel + 1, cs =>
    match skipSpace cs with
    | [] => unfinished .endsEarly none
    | '"' :: rest => ofString rest
    | '[' :: rest => items fuel [] rest
    | '\x7b' :: rest => members fuel [] rest
    | 'n' :: rest => ofWord .null 'n' ['u', 'l', 'l'] rest
    | 't' :: rest => ofWord (.bool true) 't' ['r', 'u', 'e'] rest
    | 'f' :: rest => ofWord (.bool false) 'f' ['a', 'l', 's', 'e'] rest
    | '-' :: rest => ofNumber false '-' rest
    | c :: rest => if c.isDigit then ofNumber true c (c :: rest) else unfinished .malformed (some c)

/-- The items of a list, those already found in reverse. -/
def items : Nat → List Found → List Char → Read
  | 0, found, _ => (.list found.reverse (some .endsEarly), none)
  | fuel + 1, found, cs =>
    match skipSpace cs with
    | [] => (.list found.reverse (some .endsEarly), none)
    | ']' :: rest => (.list found.reverse none, some rest)
    | c :: rest =>
      if found.isEmpty then item fuel found (c :: rest)
      else if c = ',' then item fuel found rest
      else (.list found.reverse (some .malformed), none)

def item : Nat → List Found → List Char → Read
  | 0, found, _ => (.list found.reverse (some .endsEarly), none)
  | fuel + 1, found, cs =>
    match value fuel cs with
    | (v, some rest) => items fuel (v :: found) rest
    | (v, none) => (.list (v :: found).reverse none, none)

/-- The members of a record, those already found in reverse. -/
def members : Nat → List Member → List Char → Read
  | 0, found, _ => (.record found.reverse (some .endsEarly), none)
  | fuel + 1, found, cs =>
    match skipSpace cs with
    | [] => (.record found.reverse (some .endsEarly), none)
    | '\x7d' :: rest => (.record found.reverse none, some rest)
    | c :: rest =>
      if found.isEmpty then member fuel found (c :: rest)
      else if c = ',' then member fuel found rest
      else (.record found.reverse (some .malformed), none)

def member : Nat → List Member → List Char → Read
  | 0, found, _ => (.record found.reverse (some .endsEarly), none)
  | fuel + 1, found, cs =>
    match skipSpace cs with
    | '"' :: rest =>
      match ofString rest with
      | (.text key, some rest) =>
        match skipSpace rest with
        | ':' :: rest =>
          match value fuel rest with
          | (v, some rest) => members fuel (.field key v :: found) rest
          | (v, none) => (.record (.field key v :: found).reverse none, none)
        | [] =>
          let missing := Found.broken .endsEarly .endsEarly none
          (.record (.field key missing :: found).reverse none, none)
        | c :: _ =>
          let missing := Found.broken .malformed .malformed (some c)
          (.record (.field key missing :: found).reverse none, none)
      | (.broken e p first, _) =>
        (.record (.field (.error e) (.broken p p first) :: found).reverse none, none)
      | (v, _) => (.record (.stray v :: found).reverse none, none)
    | cs => (.record (.stray (value fuel cs).1 :: found).reverse none, none)

end

def read (cs : List Char) : Read :=
  value (3 * cs.length + 3) cs

mutual

/-- The first fault that one who passes over the value meets. -/
def passFault? : Found → Option JsonFault
  | .null | .bool _ | .number _ | .text _ => none
  | .list items unclosed => (passItems? items).or unclosed
  | .record members unclosed => (passMembers? members).or unclosed
  | .broken _ passed _ => some passed

def passItems? : List Found → Option JsonFault
  | [] => none
  | item :: items => (passFault? item).or (passItems? items)

def passMembers? : List Member → Option JsonFault
  | [] => none
  | .field _ value :: members => (passFault? value).or (passMembers? members)
  | .stray found :: _ => some found.strayFault

/-- What is wrong with a value where a key should stand. -/
def strayFault : Found → JsonFault
  | .broken fault _ none => fault
  | _ => .malformed

end

/-- The fault of a wanted value that is not of the wanted kind: its own, if it has one. -/
def misfit : Found → JsonFault
  | .number (.error e) => e
  | .text (.error e) => e
  | .broken wanted _ _ => wanted
  | _ => .unfit

end Found

end DenseBench.Json
