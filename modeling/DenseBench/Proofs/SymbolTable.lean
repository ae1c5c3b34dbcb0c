import DenseBench.Proofs.Text.ByteOrder
import DenseBench.SymbolTable
import Mathlib.Data.List.Perm.Basic
import Mathlib.Data.List.Nodup

/-!
# What a table of symbols holds

Filling a table either finds every name free, and then the table holds just the given symbols, or it
stops at the first name that an earlier symbol bears. All answers of a table depend on the symbols
that it holds and not on their order.
-/

namespace DenseBench

namespace SymbolTable

/-! ## Entries -/

theorem insertEntry_perm {name : String} {symbol : Symbol} {es out : List (String × Symbol)}
    (h : insertEntry name symbol es = some out) : out.Perm ((name, symbol) :: es) := by
  induction es generalizing out with
  | nil =>
    cases h
    exact .refl _
  | cons a rest ih =>
    simp only [insertEntry] at h
    split at h
    · cases h
      exact .refl _
    · split at h
      · cases h
      · obtain ⟨mid, hmid, rfl⟩ := Option.map_eq_some_iff.mp h
        exact ((ih hmid).cons a).trans (.swap _ _ _)

theorem insertEntry_eq_none_iff {name : String} {symbol : Symbol} {es : List (String × Symbol)}
    (hes : es.Pairwise fun a b => a.1 < b.1) :
    insertEntry name symbol es = none ↔ name ∈ es.map (·.1) := by
  induction es with
  | nil => simp [insertEntry]
  | cons a rest ih =>
    obtain ⟨hhead, htail⟩ := List.pairwise_cons.mp hes
    rw [insertEntry, List.map_cons, List.mem_cons]
    by_cases hlt : name < a.1
    · -- The place of the name is in front, where all that follows is greater.
      have hne : name ≠ a.1 := String.ne_of_lt hlt
      have hnot : name ∉ rest.map (·.1) := by
        intro hmem
        obtain ⟨b, hb, rfl⟩ := List.mem_map.mp hmem
        exact String.lt_asymm hlt (hhead b hb)
      simp [hlt, hne, hnot]
    · rw [if_neg hlt]
      by_cases heq : name = a.1
      · simp [heq]
      · rw [if_neg heq, Option.map_eq_none_iff, ih htail]
        simp [heq]

variable {table : SymbolTable}

theorem nodup_names (table : SymbolTable) : table.names.Nodup :=
  List.pairwise_map.mpr (table.increasing.imp fun h => String.ne_of_lt h)

theorem lookup_eq_some_iff_mem {name : String} {symbol : Symbol} :
    table.entries.lookup name = some symbol ↔ (name, symbol) ∈ table.entries := by
  rw [List.lookup_eq_some_iff]
  constructor
  · rintro ⟨before, after, hentries, -⟩
    rw [hentries]
    exact List.mem_append_right before List.mem_cons_self
  · intro hmem
    obtain ⟨before, after, hentries⟩ := List.append_of_mem hmem
    refine ⟨before, after, hentries, ?_⟩
    intro e he
    have hlt := (List.pairwise_append.mp (hentries ▸ table.increasing)).2.2 e he _
      List.mem_cons_self
    exact bne_iff_ne.mpr (String.ne_of_lt hlt).symm

theorem get_eq_ok_iff {name : String} {symbol : Symbol} :
    table.get name = .ok symbol ↔ (name, symbol) ∈ table.entries := by
  rw [← lookup_eq_some_iff_mem, get]
  cases table.entries.lookup name <;> simp

theorem get_eq_error_iff {name : String} {e : Error} :
    table.get name = .error e ↔ name ∉ table.names ∧ e = .unknownName name := by
  have hnone : table.entries.lookup name = none ↔ name ∉ table.names := by
    simp only [List.lookup_eq_none_iff, names, List.mem_map, not_exists, not_and, bne_iff_ne]
    exact forall₂_congr fun _ _ => ne_comm
  rw [← hnone, get]
  cases table.entries.lookup name <;> simp [eq_comm]

theorem ufunc_eq_ok_iff {name : String} {u : Ufunc} :
    table.ufunc name = .ok u ↔ table.get name = .ok (.ufunc u) := by
  unfold ufunc
  rcases table.get name with e | (v | t) <;> simp

theorem ufunc_eq_error_iff {name : String} {e : Error} :
    table.ufunc name = .error e ↔
      (∃ t, table.get name = .ok (.dtype t)) ∧ e = .wrongSymbolKind name .ufunc ∨
        table.get name = .error e := by
  unfold ufunc
  rcases table.get name with e' | (v | t) <;> simp [eq_comm]

theorem dtype_eq_ok_iff {name : String} {t : ElementType} :
    table.dtype name = .ok t ↔ table.get name = .ok (.dtype t) := by
  unfold dtype
  rcases table.get name with e | (u | t') <;> simp

theorem dtype_eq_error_iff {name : String} {e : Error} :
    table.dtype name = .error e ↔
      (∃ u, table.get name = .ok (.ufunc u)) ∧ e = .wrongSymbolKind name .dtype ∨
        table.get name = .error e := by
  unfold dtype
  rcases table.get name with e' | (u | t) <;> simp [eq_comm]

theorem contains_iff {name : String} :
    table.contains name = true ↔ ∃ symbol, table.get name = .ok symbol := by
  simp only [contains, Option.isSome_iff_exists, lookup_eq_some_iff_mem, get_eq_ok_iff]

theorem names_pairwise_bytes (table : SymbolTable) :
    table.names.Pairwise fun a b => Text.bytes a < Text.bytes b :=
  List.pairwise_map.mpr (table.increasing.imp fun h => Text.bytes_lt_bytes h)

/-! ## Filling -/

/-- The table has an entry for each of the symbols, and no other. -/
def Holds (table : SymbolTable) (symbols : List Symbol) : Prop :=
  table.entries.Perm (symbols.map fun s => (s.name, s))

namespace Holds

variable {symbols : List Symbol}

theorem names_perm (h : table.Holds symbols) : table.names.Perm (symbols.map Symbol.name) := by
  have hnames := h.map Prod.fst
  rwa [List.map_map] at hnames

theorem nodup (h : table.Holds symbols) : (symbols.map Symbol.name).Nodup :=
  h.names_perm.nodup_iff.mp table.nodup_names

theorem mem_entries (h : table.Holds symbols) {name : String} {symbol : Symbol} :
    (name, symbol) ∈ table.entries ↔ symbol ∈ symbols ∧ symbol.name = name := by
  rw [h.mem_iff, List.mem_map]
  constructor
  · rintro ⟨s, hs, heq⟩
    cases heq
    exact ⟨hs, rfl⟩
  · rintro ⟨hs, rfl⟩
    exact ⟨symbol, hs, rfl⟩

theorem eq_of_perm {other : SymbolTable} {others : List Symbol} (h : table.Holds symbols)
    (hother : other.Holds others) (hperm : others.Perm symbols) : other = table := by
  have hentries : other.entries.Perm table.entries :=
    hother.trans ((hperm.map _).trans h.symm)
  have heq : other.entries = table.entries :=
    hentries.eq_of_pairwise (fun a b _ _ hab hba => absurd hba (String.lt_asymm hab))
      other.increasing table.increasing
  cases table
  cases other
  cases heq
  rfl

theorem empty : SymbolTable.empty.Holds [] :=
  .refl _

/-- One symbol more is entered, unless its name is taken. -/
theorem insert?_cases (h : table.Holds symbols) (s : Symbol) :
    (∃ next, table.insert? s.name s = some next ∧ next.Holds (symbols ++ [s])) ∨
      table.insert? s.name s = none ∧ s.name ∈ symbols.map Symbol.name := by
  unfold insert?
  split
  · rename_i out hout
    refine .inl ⟨_, rfl, ?_⟩
    have hperm : out.Perm ((s.name, s) :: symbols.map fun s => (s.name, s)) :=
      (insertEntry_perm hout).trans (h.cons _)
    rw [Holds, List.map_append]
    exact hperm.trans (List.perm_append_singleton _ _).symm
  · rename_i hnone
    refine .inr ⟨rfl, ?_⟩
    have htaken : s.name ∈ table.names := (insertEntry_eq_none_iff table.increasing).mp hnone
    exact h.names_perm.mem_iff.mp htaken

theorem addAll_cases (h : table.Holds symbols) (rest : List Symbol) :
    (∃ full, table.addAll rest = .ok full ∧ full.Holds (symbols ++ rest)) ∨
      ∃ earlier s later, rest = earlier ++ s :: later ∧
        table.addAll rest = .error (.duplicateName s.name) ∧
        ((symbols ++ earlier).map Symbol.name).Nodup ∧
        s.name ∈ (symbols ++ earlier).map Symbol.name := by
  -- The symbols still to be entered shrink; those entered before are what the table holds.
  induction rest generalizing table symbols with
  | nil => exact .inl ⟨table, rfl, by rwa [List.append_nil]⟩
  | cons s rest ih =>
    rw [addAll]
    rcases h.insert?_cases s with ⟨next, hnext, hholds⟩ | ⟨hnone, htaken⟩
    · rw [hnext]
      dsimp only
      rcases ih hholds with ⟨full, hfull, hall⟩ | ⟨earlier, t, later, hrest, herror, hnodup, hmem⟩
      · exact .inl ⟨full, hfull, by rwa [List.append_assoc] at hall⟩
      · rw [List.append_assoc] at hnodup hmem
        exact .inr ⟨s :: earlier, t, later, by rw [hrest]; rfl, herror, hnodup, hmem⟩
    · rw [hnone]
      refine .inr ⟨[], s, rest, rfl, rfl, ?_, ?_⟩
      · rw [List.append_nil]
        exact h.nodup
      · rwa [List.append_nil]

end Holds

/-! ## Building -/

def symbolsOf (ufuncs : List Ufunc) (dtypes : List ElementType) : List Symbol :=
  ufuncs.map .ufunc ++ dtypes.map .dtype

/-- The names of all functions and, after them, of all types. -/
def namesOf (ufuncs : List Ufunc) (dtypes : List ElementType) : List String :=
  ufuncs.map Ufunc.name ++ dtypes.map ElementType.name

theorem map_name_symbolsOf (ufuncs : List Ufunc) (dtypes : List ElementType) :
    (symbolsOf ufuncs dtypes).map Symbol.name = namesOf ufuncs dtypes := by
  rw [symbolsOf, List.map_append, List.map_map, List.map_map]
  rfl

/-- The name stands behind distinct names and is one of them. -/
def FirstRepeat (names : List String) (name : String) : Prop :=
  ∃ earlier later, names = earlier ++ name :: later ∧ earlier.Nodup ∧ name ∈ earlier

namespace FirstRepeat

variable {names : List String} {a b : String}

theorem not_nodup (h : FirstRepeat names a) : ¬ names.Nodup := by
  obtain ⟨earlier, later, rfl, -, hmem⟩ := h
  intro hnodup
  exact (List.nodup_append.mp hnodup).2.2 a hmem a List.mem_cons_self rfl

/-- Distinct names in front do not reach beyond a repeat. -/
theorem length_le {earlier later front rest : List String}
    (heq : earlier ++ a :: later = front ++ rest) (hmem : a ∈ earlier) (hnodup : front.Nodup) :
    front.length ≤ earlier.length := by
  by_contra hlt
  have hlength : (earlier ++ [a]).length ≤ front.length := by
    rw [List.length_append, List.length_singleton]
    omega
  have hrepeat : earlier ++ [a] <+: front ++ rest := ⟨later, by rw [← heq, List.append_assoc]; rfl⟩
  have hfront : earlier ++ [a] <+: front :=
    List.prefix_of_prefix_length_le hrepeat (List.prefix_append front rest) hlength
  exact (List.nodup_append.mp (hnodup.sublist hfront.sublist)).2.2 a hmem a
    (List.mem_singleton_self a) rfl

theorem eq (ha : FirstRepeat names a) (hb : FirstRepeat names b) : a = b := by
  obtain ⟨earlier, later, hearlier, hnodup, hmem⟩ := ha
  obtain ⟨front, rest, hfront, hdistinct, hagain⟩ := hb
  have heq : earlier ++ a :: later = front ++ b :: rest := hearlier.symm.trans hfront
  have hlength : earlier.length = front.length :=
    Nat.le_antisymm (length_le heq.symm hagain hnodup) (length_le heq hmem hdistinct)
  exact (List.cons.inj (List.append_inj heq hlength).2).1

end FirstRepeat

theorem build_cases (ufuncs : List Ufunc) (dtypes : List ElementType) :
    (∃ table, build ufuncs dtypes = .ok table ∧ table.Holds (symbolsOf ufuncs dtypes)) ∨
      ∃ name, build ufuncs dtypes = .error (.duplicateName name) ∧
        FirstRepeat (namesOf ufuncs dtypes) name := by
  rcases Holds.empty.addAll_cases (symbolsOf ufuncs dtypes) with
    hok | ⟨earlier, s, later, hsymbols, herror, hnodup, hmem⟩
  · exact .inl hok
  · refine .inr ⟨s.name, herror, earlier.map Symbol.name, later.map Symbol.name, ?_, hnodup, hmem⟩
    rw [← map_name_symbolsOf, hsymbols, List.map_append, List.map_cons]

theorem holds_of_build {ufuncs : List Ufunc} {dtypes : List ElementType} {table : SymbolTable}
    (h : build ufuncs dtypes = .ok table) : table.Holds (symbolsOf ufuncs dtypes) := by
  rcases build_cases ufuncs dtypes with ⟨built, hbuilt, hholds⟩ | ⟨name, herror, -⟩
  · rw [hbuilt] at h
    cases h
    exact hholds
  · rw [herror] at h
    cases h

theorem build_eq_error_iff {ufuncs : List Ufunc} {dtypes : List ElementType} {e : Error} :
    build ufuncs dtypes = .error e ↔
      ∃ name, FirstRepeat (namesOf ufuncs dtypes) name ∧ e = .duplicateName name := by
  rcases build_cases ufuncs dtypes with ⟨table, hok, hholds⟩ | ⟨name, herror, hrepeat⟩
  · have hnodup := hholds.nodup
    rw [map_name_symbolsOf] at hnodup
    rw [hok]
    refine iff_of_false nofun ?_
    rintro ⟨name, hrepeat, -⟩
    exact hrepeat.not_nodup hnodup
  · rw [herror]
    constructor
    · rintro ⟨⟩
      exact ⟨name, hrepeat, rfl⟩
    · rintro ⟨other, hother, rfl⟩
      rw [hrepeat.eq hother]

theorem build_isOk_iff {ufuncs : List Ufunc} {dtypes : List ElementType} :
    (∃ table, build ufuncs dtypes = .ok table) ↔ (namesOf ufuncs dtypes).Nodup := by
  rcases build_cases ufuncs dtypes with ⟨table, hok, hholds⟩ | ⟨name, herror, hrepeat⟩
  · have hnodup := hholds.nodup
    rw [map_name_symbolsOf] at hnodup
    exact iff_of_true ⟨table, hok⟩ hnodup
  · refine iff_of_false ?_ hrepeat.not_nodup
    rintro ⟨table, hok⟩
    rw [herror] at hok
    cases hok

theorem ufunc_mem_symbolsOf {ufuncs : List Ufunc} {dtypes : List ElementType} {u : Ufunc} :
    .ufunc u ∈ symbolsOf ufuncs dtypes ↔ u ∈ ufuncs := by
  simp [symbolsOf]

theorem dtype_mem_symbolsOf {ufuncs : List Ufunc} {dtypes : List ElementType} {t : ElementType} :
    .dtype t ∈ symbolsOf ufuncs dtypes ↔ t ∈ dtypes := by
  simp [symbolsOf]

theorem build_eq_of_perm {ufuncs ufuncs' : List Ufunc} {dtypes dtypes' : List ElementType}
    {table : SymbolTable} (h : build ufuncs dtypes = .ok table) (hufuncs : ufuncs'.Perm ufuncs)
    (hdtypes : dtypes'.Perm dtypes) : build ufuncs' dtypes' = .ok table := by
  have hsymbols : (symbolsOf ufuncs' dtypes').Perm (symbolsOf ufuncs dtypes) :=
    (hufuncs.map _).append (hdtypes.map _)
  have hholds := holds_of_build h
  rcases build_cases ufuncs' dtypes' with ⟨other, hother, hothers⟩ | ⟨name, -, hrepeat⟩
  · rw [hother, hholds.eq_of_perm hothers hsymbols]
  · refine absurd ?_ hrepeat.not_nodup
    rw [← map_name_symbolsOf]
    exact (hsymbols.map Symbol.name).nodup_iff.mpr hholds.nodup

/-- The table answers for the given functions and types, each under its own name, and for nothing
else. -/
structure Registers (ufuncs : List Ufunc) (dtypes : List ElementType) (table : SymbolTable) :
    Prop where
  get_ok (name : String) (symbol : Symbol) :
    table.get name = .ok symbol ↔ symbol ∈ symbolsOf ufuncs dtypes ∧ symbol.name = name
  get_error (name : String) (e : Error) :
    table.get name = .error e ↔ name ∉ namesOf ufuncs dtypes ∧ e = .unknownName name
  ufunc_ok (name : String) (u : Ufunc) : table.ufunc name = .ok u ↔ u ∈ ufuncs ∧ u.name = name
  ufunc_error (name : String) (e : Error) :
    table.ufunc name = .error e ↔
      (∃ t ∈ dtypes, t.name = name) ∧ e = .wrongSymbolKind name .ufunc ∨
        name ∉ namesOf ufuncs dtypes ∧ e = .unknownName name
  dtype_ok (name : String) (t : ElementType) :
    table.dtype name = .ok t ↔ t ∈ dtypes ∧ t.name = name
  dtype_error (name : String) (e : Error) :
    table.dtype name = .error e ↔
      (∃ u ∈ ufuncs, u.name = name) ∧ e = .wrongSymbolKind name .dtype ∨
        name ∉ namesOf ufuncs dtypes ∧ e = .unknownName name
  contains_iff (name : String) :
    table.contains name = true ↔ ∃ symbol, table.get name = .ok symbol
  mem_names (name : String) : name ∈ table.names ↔ name ∈ namesOf ufuncs dtypes
  increasing : table.names.Pairwise fun a b => Text.bytes a < Text.bytes b
  names_entries : table.entries.map Prod.fst = table.names
  mem_entries (name : String) (symbol : Symbol) :
    (name, symbol) ∈ table.entries ↔ table.get name = .ok symbol
  size_eq : table.size = ufuncs.length + dtypes.length

theorem Holds.registers {ufuncs : List Ufunc} {dtypes : List ElementType}
    (h : table.Holds (symbolsOf ufuncs dtypes)) : Registers ufuncs dtypes table := by
  have hnames (name : String) : name ∈ table.names ↔ name ∈ namesOf ufuncs dtypes := by
    rw [h.names_perm.mem_iff, map_name_symbolsOf]
  have hget (name : String) (symbol : Symbol) :
      table.get name = .ok symbol ↔ symbol ∈ symbolsOf ufuncs dtypes ∧ symbol.name = name :=
    get_eq_ok_iff.trans h.mem_entries
  have hufunc (name : String) (u : Ufunc) :
      table.get name = .ok (.ufunc u) ↔ u ∈ ufuncs ∧ u.name = name := by
    rw [hget, ufunc_mem_symbolsOf]
    rfl
  have hdtype (name : String) (t : ElementType) :
      table.get name = .ok (.dtype t) ↔ t ∈ dtypes ∧ t.name = name := by
    rw [hget, dtype_mem_symbolsOf]
    rfl
  have hunknown (name : String) (e : Error) :
      table.get name = .error e ↔ name ∉ namesOf ufuncs dtypes ∧ e = .unknownName name := by
    rw [get_eq_error_iff, hnames]
  exact {
    get_ok := hget
    get_error := hunknown
    ufunc_ok := fun name u => ufunc_eq_ok_iff.trans (hufunc name u)
    ufunc_error := fun name e => by simp only [ufunc_eq_error_iff, hdtype, hunknown]
    dtype_ok := fun name t => dtype_eq_ok_iff.trans (hdtype name t)
    dtype_error := fun name e => by simp only [dtype_eq_error_iff, hufunc, hunknown]
    contains_iff := fun _ => contains_iff
    mem_names := hnames
    increasing := names_pairwise_bytes table
    names_entries := rfl
    mem_entries := fun _ _ => get_eq_ok_iff.symm
    size_eq := by
      rw [size, h.length_eq, List.length_map, symbolsOf, List.length_append, List.length_map,
        List.length_map] }

/-- A table is built exactly if all names are distinct; otherwise the first name that repeats an
earlier one is the fault. What is built answers for the given symbols alone, in increasing order of
their names' bytes, and does not depend on the order in which they were given. -/
theorem build_registers (ufuncs : List Ufunc) (dtypes : List ElementType) :
    ((∃ table, build ufuncs dtypes = .ok table) ↔ (namesOf ufuncs dtypes).Nodup) ∧
    (∀ e, build ufuncs dtypes = .error e ↔
      ∃ name, FirstRepeat (namesOf ufuncs dtypes) name ∧ e = .duplicateName name) ∧
    ∀ table, build ufuncs dtypes = .ok table →
      Registers ufuncs dtypes table ∧
      ∀ ufuncs' dtypes', ufuncs'.Perm ufuncs → dtypes'.Perm dtypes →
        build ufuncs' dtypes' = .ok table := by
  refine ⟨build_isOk_iff, fun e => build_eq_error_iff, ?_⟩
  intro table htable
  refine ⟨(holds_of_build htable).registers, ?_⟩
  intro ufuncs' dtypes' hufuncs hdtypes
  exact build_eq_of_perm htable hufuncs hdtypes

/-- What is exported answers for the functions and the types of the library. -/
theorem registers_exported : Registers Ufunc.table ElementType.all exported := by
  have hok := isOk_build_exported
  cases hbuild : build Ufunc.table ElementType.all with
  | error e =>
    rw [hbuild] at hok
    cases hok
  | ok table =>
    have hexported : exported = table := by rw [exported, hbuild]
    rw [hexported]
    exact (holds_of_build hbuild).registers

def rootAndSum : List Ufunc :=
  [⟨"sqrt", .sqrt, "Square root."⟩, ⟨"add", .add, "Sum."⟩]

theorem build_registers_rootAndSum :
    ∃ table, build rootAndSum [.float64, .bool] = .ok table ∧
      build rootAndSum.reverse [.bool, .float64] = .ok table ∧
      table.ufunc "add" = .ok ⟨"add", .add, "Sum."⟩ ∧
      table.dtype "add" = .error (.wrongSymbolKind "add" .dtype) ∧
      table.get "matmul" = .error (.unknownName "matmul") ∧
      build (rootAndSum ++ rootAndSum) [.float64] = .error (.duplicateName "sqrt") := by
  obtain ⟨hbuilt, -, hall⟩ := build_registers rootAndSum [.float64, .bool]
  obtain ⟨table, htable⟩ := hbuilt.mpr (by decide)
  obtain ⟨hregisters, hperm⟩ := hall table htable
  refine ⟨table, htable, ?_, ?_, ?_, ?_, ?_⟩
  · exact hperm _ _ (List.reverse_perm _) (.swap _ _ _)
  · exact (hregisters.ufunc_ok _ _).mpr ⟨by decide, rfl⟩
  · have hsum : (⟨"add", .add, "Sum."⟩ : Ufunc) ∈ rootAndSum := by decide
    exact (hregisters.dtype_error _ _).mpr (.inl ⟨⟨_, hsum, rfl⟩, rfl⟩)
  · exact (hregisters.get_error _ _).mpr ⟨by decide, rfl⟩
  · obtain ⟨-, herror, -⟩ := build_registers (rootAndSum ++ rootAndSum) [.float64]
    have hrepeat : FirstRepeat (namesOf (rootAndSum ++ rootAndSum) [.float64]) "sqrt" :=
      ⟨["sqrt", "add"], ["add", "float64"], rfl, by decide, by decide⟩
    exact (herror _).mpr ⟨"sqrt", hrepeat, rfl⟩

end SymbolTable

end DenseBench
