import DenseBench.Ufunc

/-!
# Symbol tables

The flat table of exported names: each universal function under its name and each element type
under its own. Entries are kept in increasing order of names, so that no name has two entries and
the order in which the table was filled leaves no trace.
-/

namespace DenseBench

inductive Symbol
  | ufunc (u : Ufunc)
  | dtype (t : ElementType)
  deriving DecidableEq, Repr

namespace Symbol

def kind : Symbol → SymbolKind
  | ufunc _ => .ufunc
  | dtype _ => .dtype

def name : Symbol → String
  | ufunc u => u.name
  | dtype t => t.name

end Symbol

/-- Entries in increasing order of names. -/
structure SymbolTable where
  entries : List (String × Symbol)
  increasing : entries.Pairwise fun a b => a.1 < b.1

namespace SymbolTable

def empty : SymbolTable :=
  ⟨[], .nil⟩

/-- Puts an entry in front of the first one with a greater name; nothing if the name is taken. -/
def insertEntry (name : String) (symbol : Symbol) :
    List (String × Symbol) → Option (List (String × Symbol))
  | [] => some [(name, symbol)]
  | e :: rest =>
    if name < e.1 then some ((name, symbol) :: e :: rest)
    else if name = e.1 then none
    else (insertEntry name symbol rest).map (e :: ·)

theorem mem_of_insertEntry {name : String} {symbol : Symbol} {es out : List (String × Symbol)}
    (h : insertEntry name symbol es = some out) {e : String × Symbol} :
    e ∈ out ↔ e = (name, symbol) ∨ e ∈ es := by
  induction es generalizing out with
  | nil => simp only [insertEntry, Option.some.injEq] at h; subst h; simp
  | cons a rest ih =>
    simp only [insertEntry] at h
    split at h
    · cases h; simp
    · split at h
      · cases h
      · obtain ⟨mid, hmid, rfl⟩ := Option.map_eq_some_iff.mp h
        simp only [List.mem_cons, ih hmid]
        constructor
        · rintro (h | h | h) <;> simp [h]
        · rintro (h | h | h) <;> simp [h]

theorem increasing_of_insertEntry {name : String} {symbol : Symbol}
    {es out : List (String × Symbol)} (hes : es.Pairwise fun a b => a.1 < b.1)
    (h : insertEntry name symbol es = some out) : out.Pairwise fun a b => a.1 < b.1 := by
  induction es generalizing out with
  | nil => simp only [insertEntry, Option.some.injEq] at h; subst h; simp
  | cons a rest ih =>
    have ⟨hhead, htail⟩ := List.pairwise_cons.mp hes
    simp only [insertEntry] at h
    split at h
    case isTrue hlt =>
      cases h
      refine List.pairwise_cons.mpr ⟨?_, hes⟩
      intro b hb
      rcases List.mem_cons.mp hb with rfl | hb
      · exact hlt
      · exact String.lt_trans hlt (hhead b hb)
    case isFalse hlt =>
      split at h
      case isTrue => cases h
      case isFalse hne =>
        obtain ⟨mid, hmid, rfl⟩ := Option.map_eq_some_iff.mp h
        refine List.pairwise_cons.mpr ⟨?_, ih htail hmid⟩
        intro b hb
        rcases (mem_of_insertEntry hmid).mp hb with rfl | hb
        · exact Decidable.byContradiction fun hn =>
            hne (String.le_antisymm (String.not_lt.mp hn) (String.not_lt.mp hlt))
        · exact hhead b hb

/-- The table with one more entry; nothing if the name is taken. -/
def insert? (table : SymbolTable) (name : String) (symbol : Symbol) : Option SymbolTable :=
  match h : insertEntry name symbol table.entries with
  | some out => some ⟨out, increasing_of_insertEntry table.increasing h⟩
  | none => none

/-- Enters symbols one by one; the first whose name is taken is an error. -/
def addAll (table : SymbolTable) : List Symbol → Except Error SymbolTable
  | [] => .ok table
  | s :: rest =>
    match table.insert? s.name s with
    | some table => table.addAll rest
    | none => .error (.duplicateName s.name)

/-- The table of the given functions and, after them, the given types. -/
def build (ufuncs : List Ufunc) (dtypes : List ElementType) : Except Error SymbolTable :=
  empty.addAll (ufuncs.map .ufunc ++ dtypes.map .dtype)

def get (table : SymbolTable) (name : String) : Except Error Symbol :=
  match table.entries.lookup name with
  | some symbol => .ok symbol
  | none => .error (.unknownName name)

def ufunc (table : SymbolTable) (name : String) : Except Error Ufunc :=
  match table.get name with
  | .ok (.ufunc u) => .ok u
  | .ok (.dtype _) => .error (.wrongSymbolKind name .ufunc)
  | .error e => .error e

def dtype (table : SymbolTable) (name : String) : Except Error ElementType :=
  match table.get name with
  | .ok (.dtype t) => .ok t
  | .ok (.ufunc _) => .error (.wrongSymbolKind name .dtype)
  | .error e => .error e

def contains (table : SymbolTable) (name : String) : Bool :=
  (table.entries.lookup name).isSome

def names (table : SymbolTable) : List String :=
  table.entries.map (·.1)

def size (table : SymbolTable) : Nat :=
  table.entries.length

def isEmpty (table : SymbolTable) : Bool :=
  table.entries.isEmpty

def exported : SymbolTable :=
  match build Ufunc.table ElementType.all with
  | .ok table => table
  | .error _ => empty

theorem isOk_build_exported : (build Ufunc.table ElementType.all).isOk = true := by
  decide +kernel

end SymbolTable

end DenseBench
