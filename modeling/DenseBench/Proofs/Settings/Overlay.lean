import DenseBench.Settings.Tree

/-!
# Layers and the leaves they give

A layer that keeps to the form of the settings changes just the leaves that it gives a value to, and
leaves there the last value given. All it may say besides is beside the settings.
-/

namespace DenseBench.Settings

/-! ## Leaves -/

/-- The single values that settings are made of. -/
inductive Leaf
  | engine
  | dtype
  | threads
  | seed
  | logLevel
  | json
  | csv
  deriving DecidableEq, Repr

def outputKey : String := "output"

namespace Leaf

def key : Leaf → String
  | engine => "engine"
  | dtype => "dtype"
  | threads => "threads"
  | seed => "seed"
  | logLevel => "log_level"
  | json => "json"
  | csv => "csv"

def isOutput : Leaf → Bool
  | json | csv => true
  | _ => false

def all : List Leaf :=
  [engine, dtype, threads, seed, logLevel, json, csv]

def rootKeys : List String :=
  outputKey :: (all.filter fun leaf => !leaf.isOutput).map key

def outputKeys : List String :=
  (all.filter isOutput).map key

theorem mem_all (leaf : Leaf) : leaf ∈ all := by
  cases leaf <;> decide

theorem ne_key_of_not_mem_rootKeys {key : String} (h : key ∉ rootKeys) {leaf : Leaf}
    (hleaf : leaf.isOutput = false) : key ≠ leaf.key := by
  rintro rfl
  have hroot : leaf ∈ all.filter fun leaf => !leaf.isOutput :=
    List.mem_filter.mpr ⟨leaf.mem_all, by rw [hleaf]; rfl⟩
  exact h (List.mem_cons_of_mem _ (List.mem_map_of_mem hroot))

theorem ne_key_of_not_mem_outputKeys {key : String} (h : key ∉ outputKeys) {leaf : Leaf}
    (hleaf : leaf.isOutput = true) : key ≠ leaf.key := by
  rintro rfl
  exact h (List.mem_map_of_mem (List.mem_filter.mpr ⟨leaf.mem_all, hleaf⟩))

theorem key_ne_outputKey (leaf : Leaf) : leaf.key ≠ outputKey := by
  cases leaf <;> decide

/-- The values among entries that are meant for the leaf, in their order. -/
def among (leaf : Leaf) (entries : List (String × Tree)) : List Tree :=
  entries.filterMap fun entry => if lowerKey entry.1 = leaf.key then some entry.2 else none

theorem among_cons (leaf : Leaf) (key : String) (value : Tree) (rest : List (String × Tree)) :
    leaf.among ((key, value) :: rest) =
      (if lowerKey key = leaf.key then [value] else []) ++ leaf.among rest := by
  unfold among
  by_cases hkey : lowerKey key = leaf.key
  · simp [hkey]
  · simp [hkey]

theorem among_singleton (leaf : Leaf) (key : String) (value : Tree) :
    leaf.among [(key, value)] = if lowerKey key = leaf.key then [value] else [] := by
  rw [among_cons]
  exact List.append_nil _

/-- The values that a merge gives to the leaf. -/
def given (leaf : Leaf) : KeyPath → Tree → List Tree
  | .name key, value =>
    if leaf.isOutput then if lowerKey key = outputKey then leaf.among value.entries else []
    else leaf.among [(key, value)]
  | .child (.name parent) key, value =>
    if leaf.isOutput ∧ lowerKey parent = outputKey then leaf.among [(key, value)] else []
  | _, _ => []

def values (leaf : Leaf) (layer : List (String × Tree)) : List Tree :=
  layer.flatMap fun entry => leaf.given (.ofKey (lowerKey entry.1)) entry.2

end Leaf

/-! ## Paths -/

/-- The path leads nowhere where settings are looked for. -/
inductive KeyPath.Aside : KeyPath → Prop
  | name {key : String} (h : lowerKey key ∉ Leaf.rootKeys) : Aside (.name key)
  | entry {parent key : String} (hparent : lowerKey parent = outputKey)
    (h : lowerKey key ∉ Leaf.outputKeys) : Aside (.child (.name parent) key)
  | child {parent : KeyPath} (h : parent.Aside) (key : String) : Aside (.child parent key)
  | item {parent : KeyPath} (h : parent.Aside) (index : Int) : Aside (.item parent index)

/-- The merge keeps to the form of the settings: it gives leaves their values, and tables stay
tables. -/
inductive KeyPath.Fits : KeyPath → Tree → Prop
  | leaf {key : String} {leaf : Leaf} (h : leaf.isOutput = false) (hkey : lowerKey key = leaf.key)
    (value : Tree) : Fits (.name key) value
  | output {key : String} (h : lowerKey key = outputKey) (entries : List (String × Tree)) :
    Fits (.name key) (.table entries)
  | entry {parent : String} (h : lowerKey parent = outputKey) (key : String) (value : Tree) :
    Fits (.child (.name parent) key) value
  | aside {path : KeyPath} (h : path.Aside) (value : Tree) : Fits path value

namespace Tree

def isTable : Tree → Bool
  | table _ => true
  | _ => false

theorem isTable_iff {t : Tree} : t.isTable = true ↔ ∃ entries, t = .table entries := by
  cases t <;> simp [isTable]

end Tree

namespace KeyPath

def isOutput : KeyPath → Bool
  | name key => lowerKey key = outputKey
  | child _ _ => false
  | item _ _ => false

def isAside : KeyPath → Bool
  | name key => lowerKey key ∉ Leaf.rootKeys
  | child parent key => parent.isOutput && lowerKey key ∉ Leaf.outputKeys || parent.isAside
  | item parent _ => parent.isAside

theorem isAside_iff (path : KeyPath) : path.isAside = true ↔ path.Aside := by
  induction path with
  | name key =>
    rw [isAside, decide_eq_true_iff]
    constructor
    · exact .name
    · rintro ⟨h⟩
      exact h
  | child parent key ih =>
    rw [isAside, Bool.or_eq_true, Bool.and_eq_true, decide_eq_true_iff, ih]
    constructor
    · rintro (⟨houtput, hkey⟩ | hparent)
      · cases parent with
        | name parent => exact .entry (of_decide_eq_true houtput) hkey
        | child _ _ => cases houtput
        | item _ _ => cases houtput
      · exact .child hparent key
    · intro h
      cases h with
      | entry hparent hkey => exact .inl ⟨decide_eq_true hparent, hkey⟩
      | child hparent => exact .inr hparent
  | item parent index ih =>
    rw [isAside, ih]
    constructor
    · intro h
      exact .item h index
    · rintro ⟨⟩
      assumption

instance : DecidablePred Aside :=
  fun path => decidable_of_iff _ path.isAside_iff

def isFitting (path : KeyPath) (value : Tree) : Bool :=
  path.isAside || match path with
    | name key => (Leaf.all.any fun leaf => !leaf.isOutput && lowerKey key = leaf.key) ||
        lowerKey key = outputKey && value.isTable
    | child parent _ => parent.isOutput
    | item _ _ => false

theorem isFitting_iff (path : KeyPath) (value : Tree) :
    path.isFitting value = true ↔ path.Fits value := by
  unfold isFitting
  rw [Bool.or_eq_true, isAside_iff]
  constructor
  · rintro (h | h)
    · exact .aside h value
    cases path with
    | name key =>
      rcases Bool.or_eq_true _ _ ▸ h with h | h
      · obtain ⟨leaf, -, hleaf⟩ := List.any_eq_true.mp h
        rw [Bool.and_eq_true, Bool.not_eq_true', decide_eq_true_iff] at hleaf
        exact .leaf hleaf.1 hleaf.2 value
      · rw [Bool.and_eq_true, decide_eq_true_iff] at h
        obtain ⟨entries, rfl⟩ := Tree.isTable_iff.mp h.2
        exact .output h.1 entries
    | child parent key =>
      cases parent with
      | name parent => exact .entry (of_decide_eq_true h) key value
      | child _ _ => cases h
      | item _ _ => cases h
    | item _ _ => cases h
  · intro h
    cases h with
    | aside h => exact .inl h
    | @leaf key leaf hleaf hkey =>
      have hany : (Leaf.all.any fun leaf => !leaf.isOutput && lowerKey key = leaf.key) = true :=
        List.any_eq_true.mpr ⟨leaf, leaf.mem_all, by simp [hleaf, hkey]⟩
      exact .inr (by simp [hany])
    | output hkey entries => exact .inr (by simp [hkey, Tree.isTable])
    | entry hparent key => exact .inr (decide_eq_true hparent)

instance (path : KeyPath) (value : Tree) : Decidable (path.Fits value) :=
  decidable_of_iff _ (path.isFitting_iff value)

end KeyPath

namespace Tree

/-- A value that is no table takes the place of what was there. -/
def IsPlain : Tree → Prop
  | table _ => False
  | _ => True

theorem mergeValue_of_isPlain {value : Tree} (h : value.IsPlain) (old : Option Tree) :
    mergeValue value old = value := by
  cases value with
  | table entries => exact h.elim
  | _ => rfl

theorem some_mergeValue_eq {meant : Prop} [Decidable meant] {value : Tree}
    {old found : Option Tree} (hplain : ∀ v ∈ (if meant then [value] else []), v.IsPlain) :
    (if meant then some (mergeValue value old) else found) =
      (if meant then [value] else []).getLast?.or found := by
  by_cases hmeant : meant
  · rw [if_pos hmeant] at hplain
    rw [if_pos hmeant, if_pos hmeant, mergeValue_of_isPlain (hplain value List.mem_cons_self)]
    rfl
  · rw [if_neg hmeant, if_neg hmeant]
    rfl

/-- What stands at a leaf. -/
def leaf? (t : Tree) (leaf : Leaf) : Option Tree :=
  let entries := if leaf.isOutput then ((t.entries.lookup outputKey).getD .null).entries
    else t.entries
  entries.lookup leaf.key

/-- The outputs are a table, if they are there. -/
def Shaped (t : Tree) : Prop :=
  ∀ output, t.entries.lookup outputKey = some output → ∃ entries, output = .table entries

end Tree

theorem lookup_updateKey_self (key : String) (change : Option Tree → Tree)
    (entries : List (String × Tree)) :
    (updateKey key change entries).lookup key = some (change (entries.lookup key)) := by
  induction entries with
  | nil => simp [updateKey]
  | cons entry rest ih =>
    unfold updateKey
    by_cases h : entry.1 = key
    · obtain ⟨name, old⟩ := entry
      obtain rfl : name = key := h
      rw [if_pos rfl, List.lookup_cons_self, List.lookup_cons_self]
    · rw [if_neg h, List.lookup_cons, List.lookup_cons, beq_false_of_ne (Ne.symm h)]
      exact ih

theorem lookup_updateKey_of_ne {key other : String} (h : other ≠ key)
    (change : Option Tree → Tree) (entries : List (String × Tree)) :
    (updateKey key change entries).lookup other = entries.lookup other := by
  induction entries with
  | nil => simp [updateKey, h]
  | cons entry rest ih =>
    unfold updateKey
    by_cases hkey : entry.1 = key
    · obtain ⟨name, old⟩ := entry
      obtain rfl : name = key := hkey
      rw [if_pos rfl, List.lookup_cons, List.lookup_cons, beq_false_of_ne h]
    · rw [if_neg hkey, List.lookup_cons, List.lookup_cons, ih]

namespace Tree

theorem leaf?_of_output {leaf : Leaf} (h : leaf.isOutput = true) (t : Tree) :
    t.leaf? leaf = ((t.entries.lookup outputKey).getD .null).entries.lookup leaf.key := by
  rw [leaf?, if_pos h]

theorem leaf?_of_root {leaf : Leaf} (h : leaf.isOutput = false) (t : Tree) :
    t.leaf? leaf = t.entries.lookup leaf.key := by
  rw [leaf?, h, if_neg Bool.false_ne_true]

theorem leaf?_updateKey (t : Tree) (key : String) (change : Option Tree → Tree) (leaf : Leaf) :
    (table (updateKey key change t.entries)).leaf? leaf =
      if leaf.isOutput then
        if key = outputKey then (change (t.entries.lookup key)).entries.lookup leaf.key
        else t.leaf? leaf
      else if key = leaf.key then some (change (t.entries.lookup key)) else t.leaf? leaf := by
  cases hleaf : leaf.isOutput with
  | true =>
    rw [leaf?_of_output hleaf, leaf?_of_output hleaf, if_pos rfl]
    change (((updateKey key change t.entries).lookup outputKey).getD .null).entries.lookup _ = _
    split
    · rename_i hkey
      subst hkey
      rw [lookup_updateKey_self]
      rfl
    · rename_i hkey
      rw [lookup_updateKey_of_ne (Ne.symm hkey)]
  | false =>
    rw [leaf?_of_root hleaf, leaf?_of_root hleaf, if_neg Bool.false_ne_true]
    change (updateKey key change t.entries).lookup leaf.key = _
    split
    · rename_i hkey
      rw [← hkey, lookup_updateKey_self]
    · rename_i hkey
      rw [lookup_updateKey_of_ne (Ne.symm hkey)]

theorem leaf?_updateKey_of_not_mem (t : Tree) {key : String} (h : key ∉ Leaf.rootKeys)
    (change : Option Tree → Tree) (leaf : Leaf) :
    (table (updateKey key change t.entries)).leaf? leaf = t.leaf? leaf := by
  rw [leaf?_updateKey]
  cases hleaf : leaf.isOutput with
  | true =>
    rw [if_pos rfl, if_neg]
    rintro rfl
    exact h List.mem_cons_self
  | false =>
    rw [if_neg Bool.false_ne_true, if_neg (Leaf.ne_key_of_not_mem_rootKeys h hleaf)]

theorem Shaped.updateKey {t : Tree} (h : t.Shaped) {key : String} {change : Option Tree → Tree}
    (hchange : key = outputKey → ∃ entries, change (t.entries.lookup key) = .table entries) :
    (table (updateKey key change t.entries)).Shaped := by
  intro output houtput
  change (Settings.updateKey key change t.entries).lookup outputKey = some output at houtput
  by_cases hkey : key = outputKey
  · subst hkey
    rw [lookup_updateKey_self] at houtput
    cases houtput
    exact hchange rfl
  · rw [lookup_updateKey_of_ne (Ne.symm hkey)] at houtput
    exact h output houtput

def changeOutput (key : String) (change : Option Tree → Tree) (t : Tree) : Tree :=
  table (updateKey outputKey (fun old => table (updateKey key change (old.getD .null).entries))
    t.entries)

theorem Shaped.changeOutput {t : Tree} (h : t.Shaped) (key : String)
    (change : Option Tree → Tree) : (t.changeOutput key change).Shaped :=
  h.updateKey fun _ => ⟨_, rfl⟩

theorem leaf?_changeOutput (t : Tree) (key : String) (change : Option Tree → Tree) (leaf : Leaf) :
    (t.changeOutput key change).leaf? leaf =
      if leaf.isOutput ∧ key = leaf.key then some (change (t.leaf? leaf)) else t.leaf? leaf := by
  rw [changeOutput, leaf?_updateKey]
  cases hleaf : leaf.isOutput with
  | true =>
    rw [if_pos rfl, if_pos rfl, leaf?_of_output hleaf]
    change (updateKey key change ((t.entries.lookup outputKey).getD .null).entries).lookup
      leaf.key = _
    by_cases hkey : key = leaf.key
    · subst hkey
      rw [if_pos ⟨rfl, rfl⟩, lookup_updateKey_self]
    · rw [if_neg fun h => hkey h.2, lookup_updateKey_of_ne (Ne.symm hkey)]
  | false =>
    rw [if_neg Bool.false_ne_true, if_neg (Ne.symm leaf.key_ne_outputKey),
      if_neg fun h => Bool.false_ne_true h.1]

theorem leaf?_changeOutput_of_not_mem (t : Tree) {key : String} (h : key ∉ Leaf.outputKeys)
    (change : Option Tree → Tree) (leaf : Leaf) :
    (t.changeOutput key change).leaf? leaf = t.leaf? leaf := by
  rw [leaf?_changeOutput, if_neg]
  rintro ⟨hleaf, hkey⟩
  exact Leaf.ne_key_of_not_mem_outputKeys h hleaf hkey

theorem lookup_mergeEntries (leaf : Leaf) (new : List (String × Tree)) (target : Tree)
    (hplain : ∀ value ∈ leaf.among new, value.IsPlain) :
    (mergeEntries new target).entries.lookup leaf.key =
      (leaf.among new).getLast?.or (target.entries.lookup leaf.key) := by
  induction new generalizing target with
  | nil => rfl
  | cons entry rest ih =>
    obtain ⟨key, value⟩ := entry
    rw [Leaf.among_cons] at hplain ⊢
    rw [mergeEntries, ih _ fun value h => hplain value (List.mem_append_right _ h)]
    change (leaf.among rest).getLast?.or
      ((updateKey (lowerKey key) (mergeValue value) target.entries).lookup leaf.key) = _
    split at hplain
    · rename_i hkey
      have hvalue : value.IsPlain := hplain value List.mem_cons_self
      rw [if_pos hkey, hkey, lookup_updateKey_self, mergeValue_of_isPlain hvalue,
        List.singleton_append, List.getLast?_cons]
      cases (leaf.among rest).getLast? <;> rfl
    · rename_i hkey
      rw [if_neg hkey, lookup_updateKey_of_ne (Ne.symm hkey), List.nil_append]

theorem exists_mergeEntries_eq_table (new entries : List (String × Tree)) :
    ∃ merged, mergeEntries new (table entries) = table merged := by
  induction new generalizing entries with
  | nil => exact ⟨entries, rfl⟩
  | cons entry rest ih =>
    rw [mergeEntries]
    exact ih _

end Tree

/-! ## Merging -/

/-- From one tree to the other each leaf takes the last of the values given to it, if any. -/
structure Takes (given : Leaf → List Tree) (t t' : Tree) : Prop where
  shaped : t'.Shaped
  leaf?_eq : ∀ leaf : Leaf, (∀ v ∈ given leaf, v.IsPlain) →
    t'.leaf? leaf = (given leaf).getLast?.or (t.leaf? leaf)

namespace Takes

variable {given later : Leaf → List Tree} {t t' t'' : Tree}

theorem refl (h : t.Shaped) : Takes (fun _ => []) t t :=
  ⟨h, fun _ _ => rfl⟩

theorem trans (h : Takes given t t') (h' : Takes later t' t'') :
    Takes (fun leaf => given leaf ++ later leaf) t t'' := by
  refine ⟨h'.shaped, fun leaf hplain => ?_⟩
  have hlater := h'.leaf?_eq leaf fun v hv => hplain v (List.mem_append_right _ hv)
  rw [h.leaf?_eq leaf fun v hv => hplain v (List.mem_append_left _ hv)] at hlater
  rw [List.getLast?_append, Option.or_assoc]
  exact hlater

end Takes

namespace KeyPath

open Settings.Tree

variable {t : Tree}

namespace Aside

variable {path : KeyPath}

theorem update (h : path.Aside) (change : Tree → Tree) (ht : t.Shaped) :
    (path.update change t).Shaped ∧ ∀ leaf, (path.update change t).leaf? leaf = t.leaf? leaf := by
  -- A longer path does all its changes in the value at a shorter one, so any change is allowed.
  induction h generalizing change with
  | name h =>
    refine ⟨ht.updateKey fun hkey => ?_, leaf?_updateKey_of_not_mem t h _⟩
    rw [hkey] at h
    exact absurd List.mem_cons_self h
  | @entry parent key hparent h =>
    simp only [KeyPath.update, updateEntry, hparent]
    exact ⟨ht.changeOutput _ _, leaf?_changeOutput_of_not_mem t h _⟩
  | child h key ih => exact ih (updateEntry key change)
  | item h index ih => exact ih (Tree.updateItem index change)

theorem merge (h : path.Aside) (value : Tree) (ht : t.Shaped) :
    (path.merge value t).Shaped ∧ ∀ leaf, (path.merge value t).leaf? leaf = t.leaf? leaf := by
  cases h with
  | name h =>
    refine ⟨ht.updateKey fun hkey => ?_, leaf?_updateKey_of_not_mem t h _⟩
    rw [hkey] at h
    exact absurd List.mem_cons_self h
  | @entry parent key hparent h =>
    simp only [KeyPath.merge, KeyPath.update, updateEntry, mergeKey, hparent]
    exact ⟨ht.changeOutput _ _, leaf?_changeOutput_of_not_mem t h _⟩
  | child h key => exact h.update (mergeKey key value) ht
  | item h index => exact h.update (Tree.updateItem index fun _ => value) ht

theorem given_eq_nil (h : path.Aside) (leaf : Leaf) (value : Tree) : leaf.given path value = [] := by
  cases h with
  | @name key h =>
    rw [Leaf.given]
    cases hleaf : leaf.isOutput with
    | true =>
      rw [if_pos rfl, if_neg]
      intro hkey
      rw [hkey] at h
      exact h List.mem_cons_self
    | false =>
      rw [if_neg Bool.false_ne_true, Leaf.among_singleton,
        if_neg (Leaf.ne_key_of_not_mem_rootKeys h hleaf)]
  | @entry parent key hparent h =>
    rw [Leaf.given]
    split
    · rename_i hleaf
      rw [Leaf.among_singleton, if_neg (Leaf.ne_key_of_not_mem_outputKeys h hleaf.1)]
    · rfl
  | @child parent h key =>
    cases h with
    | name h =>
      rw [Leaf.given, if_neg]
      rintro ⟨-, hparent⟩
      rw [hparent] at h
      exact h List.mem_cons_self
    | entry _ _ => rfl
    | child _ _ => rfl
    | item _ _ => rfl
  | item h index => rfl

theorem takes_merge (h : path.Aside) (value : Tree) (ht : t.Shaped) :
    Takes (fun leaf => leaf.given path value) t (path.merge value t) := by
  obtain ⟨hshaped, hleaf⟩ := h.merge value ht
  refine ⟨hshaped, fun leaf _ => ?_⟩
  rw [h.given_eq_nil, hleaf]
  rfl

end Aside

theorem takes_merge_leaf {key : String} {found : Leaf} (hkey : lowerKey key = found.key)
    (value : Tree) (ht : t.Shaped) :
    Takes (fun leaf => leaf.given (.name key) value) t (KeyPath.merge (.name key) value t) := by
  have hne : lowerKey key ≠ outputKey := hkey ▸ found.key_ne_outputKey
  refine ⟨ht.updateKey fun houtput => absurd houtput hne, fun leaf hplain => ?_⟩
  refine (leaf?_updateKey t (lowerKey key) _ leaf).trans ?_
  rw [Leaf.given] at hplain ⊢
  cases hleaf : leaf.isOutput with
  | true =>
    rw [if_pos rfl, if_pos rfl, if_neg hne, if_neg hne]
    rfl
  | false =>
    rw [hleaf, if_neg Bool.false_ne_true, Leaf.among_singleton] at hplain
    rw [if_neg Bool.false_ne_true, if_neg Bool.false_ne_true, Leaf.among_singleton]
    exact some_mergeValue_eq hplain

theorem takes_merge_output {key : String} (hkey : lowerKey key = outputKey)
    (entries : List (String × Tree)) (ht : t.Shaped) :
    Takes (fun leaf => leaf.given (.name key) (.table entries)) t
      (KeyPath.merge (.name key) (.table entries) t) := by
  have hmerge : KeyPath.merge (.name key) (.table entries) t =
      table (updateKey outputKey (fun old => mergeEntries entries (old.getD (table [])))
        t.entries) := by
    rw [KeyPath.merge, mergeKey, hkey]
    rfl
  rw [hmerge]
  refine ⟨ht.updateKey fun _ => ?_, fun leaf hplain => ?_⟩
  · cases hold : t.entries.lookup outputKey with
    | none => exact exists_mergeEntries_eq_table entries []
    | some old =>
      obtain ⟨held, rfl⟩ := ht old hold
      exact exists_mergeEntries_eq_table entries held
  · rw [leaf?_updateKey]
    rw [Leaf.given, hkey] at hplain
    rw [Leaf.given, hkey]
    cases hleaf : leaf.isOutput with
    | true =>
      rw [hleaf, if_pos rfl, if_pos rfl] at hplain
      rw [if_pos rfl, if_pos rfl, if_pos rfl, if_pos rfl, lookup_mergeEntries leaf entries _ hplain,
        leaf?_of_output hleaf]
      cases t.entries.lookup outputKey <;> rfl
    | false =>
      rw [if_neg Bool.false_ne_true, if_neg Bool.false_ne_true, Leaf.among_singleton, hkey,
        if_neg (Ne.symm leaf.key_ne_outputKey), if_neg (Ne.symm leaf.key_ne_outputKey)]
      rfl

theorem takes_merge_entry {parent : String} (hparent : lowerKey parent = outputKey) (key : String)
    (value : Tree) (ht : t.Shaped) :
    Takes (fun leaf => leaf.given (.child (.name parent) key) value) t
      (KeyPath.merge (.child (.name parent) key) value t) := by
  have hmerge : KeyPath.merge (.child (.name parent) key) value t =
      t.changeOutput (lowerKey key) (mergeValue value) := by
    simp only [KeyPath.merge, KeyPath.update, updateEntry, mergeKey, hparent, changeOutput]
  rw [hmerge]
  refine ⟨ht.changeOutput _ _, fun leaf hplain => ?_⟩
  have hgiven : leaf.given (.child (.name parent) key) value =
      if leaf.isOutput ∧ lowerKey key = leaf.key then [value] else [] := by
    rw [Leaf.given, Leaf.among_singleton]
    by_cases houtput : leaf.isOutput = true
    · simp [houtput, hparent]
    · simp [houtput]
  rw [hgiven] at hplain ⊢
  rw [leaf?_changeOutput]
  exact some_mergeValue_eq hplain

theorem Fits.takes_merge {path : KeyPath} {value : Tree} (h : path.Fits value) (ht : t.Shaped) :
    Takes (fun leaf => leaf.given path value) t (path.merge value t) := by
  cases h with
  | leaf _ hkey => exact takes_merge_leaf hkey value ht
  | output hkey entries => exact takes_merge_output hkey entries ht
  | entry hparent key => exact takes_merge_entry hparent key value ht
  | aside h => exact h.takes_merge value ht

end KeyPath

def LayerFits (layer : List (String × Tree)) : Prop :=
  ∀ entry ∈ layer, (KeyPath.ofKey (lowerKey entry.1)).Fits entry.2

instance : DecidablePred LayerFits :=
  fun layer => inferInstanceAs
    (Decidable (∀ entry ∈ layer, (KeyPath.ofKey (lowerKey entry.1)).Fits entry.2))

theorem LayerFits.takes_overlay {layer : List (String × Tree)} (h : LayerFits layer) {t : Tree}
    (ht : t.Shaped) : Takes (fun leaf => leaf.values layer) t (Tree.overlay layer t) := by
  induction layer generalizing t with
  | nil => exact Takes.refl ht
  | cons entry rest ih =>
    have hentry := (h entry List.mem_cons_self).takes_merge ht
    exact hentry.trans (ih (fun e he => h e (List.mem_cons_of_mem _ he)) hentry.shaped)

end DenseBench.Settings
