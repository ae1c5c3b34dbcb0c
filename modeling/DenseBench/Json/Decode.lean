import DenseBench.Json.Found

/-!
# Taking values out of JSON

Each function takes one kind of value from what reading found, or the first fault in the order of
the text. A record's fields may come in any order, or as a list in the order of their declaration;
fields of other names are passed over, and a field that comes twice is a misfit.
-/

namespace DenseBench.Json

namespace Found

def toText : Found → Except JsonFault String
  | .text (.ok s) => .ok s
  | v => .error v.misfit

def toBool : Found → Except JsonFault Bool
  | .bool b => .ok b
  | v => .error v.misfit

def toWord : Found → Except JsonFault UInt64
  | .number (.ok (.natural n)) => .ok (UInt64.ofNat n)
  | v => .error v.misfit

def toFloat : Found → Except JsonFault Float
  | .number (.ok (.natural n)) => .ok (UInt64.ofNat n).toFloat
  | .number (.ok (.negative n)) => .ok (-(UInt64.ofNat n.natAbs).toFloat)
  | .number (.ok (.float x)) => .ok x
  | v => .error v.misfit

def toList {β : Type} (decode : Found → Except JsonFault β) : Found → Except JsonFault (List β)
  | .list items unclosed =>
    match items.mapM decode, unclosed with
    | .ok xs, none => .ok xs
    | .ok _, some fault => .error fault
    | .error e, _ => .error e
  | v => .error v.misfit

def choose {β : Type} (choices : List (String × β)) (name : String) : Except JsonFault β :=
  match choices.lookup name with
  | some x => .ok x
  | none => .error .unfit

/-- One of several choices by name: the name as a text, or as the one key of a record that holds a
null. -/
def toChoice {β : Type} (choices : List (String × β)) : Found → Except JsonFault β
  | .text (.ok name) => choose choices name
  | .text (.error e) => .error e
  | .record [] unclosed => .error (unclosed.getD .malformed)
  | .record (.stray found :: _) _ => .error found.strayFault
  | .record (.field (.error e) _ :: _) _ => .error e
  | .record (.field (.ok name) value :: more) unclosed =>
    match choose choices name with
    | .error e => .error e
    | .ok x =>
      match value, more, unclosed with
      | .null, [], none => .ok x
      | .null, [], some fault => .error fault
      | .null, _ :: _, _ => .error .malformed
      | v, _, _ => .error v.misfit
  | .broken wanted _ none => .error wanted
  | .broken wanted _ (some first) => .error (if first = '"' then wanted else .malformed)
  | _ => .error .malformed

/-- Puts a value into a place that is still empty. -/
def fill {β : Type} (place : Option β) (decode : Found → Except JsonFault β) (value : Found) :
    Except JsonFault (Option β) :=
  if place.isSome then .error .unfit else (decode value).map some

variable {σ : Type}

def enterMembers (names : List String) (enter : σ → String → Found → Except JsonFault σ)
    (draft : σ) : List Member → Except JsonFault σ
  | [] => .ok draft
  | .stray found :: _ => .error found.strayFault
  | .field (.error e) _ :: _ => .error e
  | .field (.ok name) value :: more =>
    if names.contains name then
      match enter draft name value with
      | .ok draft => enterMembers names enter draft more
      | .error e => .error e
    else
      match value.passFault? with
      | none => enterMembers names enter draft more
      | some fault => .error fault

/-- Enters the items of a list one by one under the names in order. -/
def enterItems (enter : σ → String → Found → Except JsonFault σ) (draft : σ)
    (unclosed : Option JsonFault) : List String → List Found → Except JsonFault σ
  | [], [] =>
    match unclosed with
    | none => .ok draft
    | some fault => .error fault
  | [], _ :: _ => .error .malformed
  | _ :: _, [] => .error (unclosed.getD .unfit)
  | name :: names, value :: values =>
    match enter draft name value with
    | .ok draft => enterItems enter draft unclosed names values
    | .error e => .error e

/-- Enters all fields of a record into a draft of it. -/
def enterAll (names : List String) (enter : σ → String → Found → Except JsonFault σ) (draft : σ) :
    Found → Except JsonFault σ
  | .record members unclosed =>
    match enterMembers names enter draft members, unclosed with
    | .ok draft, none => .ok draft
    | .ok _, some fault => .error fault
    | .error e, _ => .error e
  | .list items unclosed => enterItems enter draft unclosed names items
  | v => .error v.misfit

end Found

/-- Reads a whole text as one record; only blanks may follow it. -/
def decodeText {β : Type} (decode : Found → Except JsonFault β) (s : String) : Except JsonFault β :=
  match Found.read s.toList with
  | (found, rest) =>
    match decode found with
    | .error e => .error e
    | .ok x => if (rest.map skipSpace).getD [] = [] then .ok x else .error .malformed

end DenseBench.Json
