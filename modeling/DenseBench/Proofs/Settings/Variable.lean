import DenseBench.Proofs.Settings.Layers

/-!
# One variable among others

A variable that gives a leaf its value changes nothing besides. The trees with and without it differ
at this leaf alone, whatever the file and the other variables say, as long as none of the variables
behind it leads to the leaf.
-/

namespace DenseBench.Settings

namespace Leaf

/-- The entry of the whole tree that the leaf is in. -/
def rootKey (leaf : Leaf) : String :=
  if leaf.isOutput then outputKey else leaf.key

def path (leaf : Leaf) : KeyPath :=
  if leaf.isOutput then .child (.name outputKey) leaf.key else .name leaf.key

def variableName : Leaf → String
  | engine => "ARRAYBENCH_ENGINE"
  | dtype => "ARRAYBENCH_DTYPE"
  | threads => "ARRAYBENCH_THREADS"
  | seed => "ARRAYBENCH_SEED"
  | logLevel => "ARRAYBENCH_LOG_LEVEL"
  | json => "ARRAYBENCH_OUTPUT__JSON"
  | csv => "ARRAYBENCH_OUTPUT__CSV"

theorem rootKey_of_output {leaf : Leaf} (h : leaf.isOutput = true) : leaf.rootKey = outputKey :=
  if_pos h

theorem rootKey_of_root {leaf : Leaf} (h : leaf.isOutput = false) : leaf.rootKey = leaf.key := by
  rw [rootKey, h, if_neg Bool.false_ne_true]

theorem lowerKey_key (leaf : Leaf) : lowerKey leaf.key = leaf.key := by
  cases leaf <;> decide

/-- The name of the variable is read as the path to the leaf. -/
theorem variableKey?_variableName (leaf : Leaf) :
    (variableKey? leaf.variableName).map (fun key => KeyPath.ofKey (lowerKey key)) =
      some leaf.path := by
  cases leaf <;> rfl

end Leaf

/-! ## Changes beside a leaf -/

/-- The path leads neither to the leaf nor to what it is in. -/
inductive KeyPath.Spares (leaf : Leaf) : KeyPath → Prop
  | name {key : String} (h : lowerKey key ≠ leaf.rootKey) : Spares leaf (.name key)
  | entry {parent key : String} (hleaf : leaf.isOutput = true)
    (hparent : lowerKey parent = outputKey) (h : lowerKey key ≠ leaf.key) :
    Spares leaf (.child (.name parent) key)
  | child {parent : KeyPath} (h : parent.Spares leaf) (key : String) :
    Spares leaf (.child parent key)
  | item {parent : KeyPath} (h : parent.Spares leaf) (index : Int) : Spares leaf (.item parent index)

/-- The change is in one entry that is not the leaf, either of the whole tree or of the outputs. -/
inductive ChangesBeside (leaf : Leaf) : (Tree → Tree) → Prop
  | root {key : String} (h : key ≠ leaf.rootKey) (change : Option Tree → Tree) :
    ChangesBeside leaf fun t => .table (updateKey key change t.entries)
  | output {key : String} (hleaf : leaf.isOutput = true) (h : key ≠ leaf.key)
    (change : Option Tree → Tree) : ChangesBeside leaf fun t => t.changeOutput key change

namespace KeyPath.Spares

variable {leaf : Leaf} {path : KeyPath}

theorem update (h : path.Spares leaf) (change : Tree → Tree) :
    ChangesBeside leaf (path.update change) := by
  -- As with paths aside, a longer path does all its changes in the value at a shorter one.
  induction h generalizing change with
  | name h => exact .root h _
  | @entry parent key hleaf hparent h =>
    have hupdate : KeyPath.update (.child (.name parent) key) change =
        fun t => t.changeOutput (lowerKey key) fun old => change (old.getD .null) := by
      funext t
      simp only [KeyPath.update, updateEntry, hparent, Tree.changeOutput]
    rw [hupdate]
    exact .output hleaf h _
  | child _ key ih => exact ih (updateEntry key change)
  | item _ index ih => exact ih (Tree.updateItem index change)

theorem merge (h : path.Spares leaf) (value : Tree) : ChangesBeside leaf (path.merge value) := by
  cases h with
  | name h => exact .root h _
  | @entry parent key hleaf hparent h =>
    have hmerge : KeyPath.merge (.child (.name parent) key) value =
        fun t => t.changeOutput (lowerKey key) (Tree.mergeValue value) := by
      funext t
      simp only [KeyPath.merge, KeyPath.update, updateEntry, Tree.mergeKey, hparent,
        Tree.changeOutput]
    rw [hmerge]
    exact .output hleaf h _
  | child h key => exact h.update (Tree.mergeKey key value)
  | item h index => exact h.update (Tree.updateItem index fun _ => value)

end KeyPath.Spares

/-! ## Trees that differ at a leaf -/

/-- What stands in the outputs under a key. -/
def Tree.outputEntry? (t : Tree) (key : String) : Option Tree :=
  ((t.entries.lookup outputKey).getD .null).entries.lookup key

theorem lookup_updateKey_congr {entries entries' : List (String × Tree)} {key other : String}
    {change : Option Tree → Tree} (hkey : other = key → entries'.lookup key = entries.lookup key)
    (hother : other ≠ key → entries'.lookup other = entries.lookup other) :
    (updateKey key change entries').lookup other = (updateKey key change entries).lookup other := by
  by_cases heq : other = key
  · subst heq
    rw [lookup_updateKey_self, lookup_updateKey_self, hkey rfl]
  · rw [lookup_updateKey_of_ne heq, lookup_updateKey_of_ne heq, hother heq]

theorem Tree.lookup_changeOutput (t : Tree) (key : String) (change : Option Tree → Tree) :
    (t.changeOutput key change).entries.lookup outputKey = some (.table
      (updateKey key change ((t.entries.lookup outputKey).getD .null).entries)) :=
  lookup_updateKey_self _ _ _

theorem Tree.lookup_changeOutput_of_ne (t : Tree) {key other : String} (h : other ≠ outputKey)
    (change : Option Tree → Tree) :
    (t.changeOutput key change).entries.lookup other = t.entries.lookup other :=
  lookup_updateKey_of_ne h _ _

/-- The second tree has the value at the leaf and is the first one everywhere else. Where the first
one has no table of outputs, the second has one with no other entry. -/
structure DiffersAt (leaf : Leaf) (value t t' : Tree) : Prop where
  leaf?_eq : t'.leaf? leaf = some value
  root : ∀ key, key ≠ leaf.rootKey → t'.entries.lookup key = t.entries.lookup key
  output : leaf.isOutput = true → ∃ entries, t'.entries.lookup outputKey = some (.table entries) ∧
    ∀ key, key ≠ leaf.key → entries.lookup key = t.outputEntry? key

namespace DiffersAt

variable {leaf : Leaf} {value t t' : Tree}

theorem merge (leaf : Leaf) (hplain : value.IsPlain) (t : Tree) :
    DiffersAt leaf value t (leaf.path.merge value t) := by
  cases hleaf : leaf.isOutput with
  | true =>
    have hmerge : leaf.path.merge value t = t.changeOutput leaf.key (Tree.mergeValue value) := by
      have houtput : lowerKey outputKey = outputKey := by decide
      rw [Leaf.path, if_pos hleaf]
      simp only [KeyPath.merge, KeyPath.update, KeyPath.updateEntry, Tree.mergeKey, houtput,
        leaf.lowerKey_key, Tree.changeOutput]
    rw [hmerge]
    refine ⟨?_, ?_, fun _ => ⟨_, t.lookup_changeOutput _ _, ?_⟩⟩
    · rw [Tree.leaf?_changeOutput, if_pos ⟨hleaf, rfl⟩, Tree.mergeValue_of_isPlain hplain]
    · intro key hkey
      rw [Leaf.rootKey_of_output hleaf] at hkey
      exact t.lookup_changeOutput_of_ne hkey _
    · intro key hkey
      exact lookup_updateKey_of_ne hkey _ _
  | false =>
    have hmerge : leaf.path.merge value t =
        .table (updateKey leaf.key (Tree.mergeValue value) t.entries) := by
      rw [Leaf.path, hleaf, if_neg Bool.false_ne_true, KeyPath.merge, Tree.mergeKey,
        leaf.lowerKey_key]
    rw [hmerge]
    refine ⟨?_, ?_, ?_⟩
    · rw [Tree.leaf?_updateKey, hleaf, if_neg Bool.false_ne_true, if_pos rfl,
        Tree.mergeValue_of_isPlain hplain]
    · intro key hkey
      rw [Leaf.rootKey_of_root hleaf] at hkey
      exact lookup_updateKey_of_ne hkey _ _
    · rw [hleaf]
      rintro ⟨⟩

theorem change (h : DiffersAt leaf value t t') {change : Tree → Tree}
    (hchange : ChangesBeside leaf change) : DiffersAt leaf value (change t) (change t') := by
  cases hchange with
  | @root key hkey change =>
    refine ⟨?_, ?_, fun hleaf => ?_⟩
    · rw [Tree.leaf?_updateKey, ← h.leaf?_eq]
      cases hleaf : leaf.isOutput with
      | true =>
        rw [Leaf.rootKey_of_output hleaf] at hkey
        rw [if_pos rfl, if_neg hkey]
      | false =>
        rw [Leaf.rootKey_of_root hleaf] at hkey
        rw [if_neg Bool.false_ne_true, if_neg hkey]
    · intro other hother
      exact lookup_updateKey_congr (fun _ => h.root key hkey) fun _ => h.root other hother
    · obtain ⟨entries, hentries, hsame⟩ := h.output hleaf
      rw [Leaf.rootKey_of_output hleaf] at hkey
      refine ⟨entries, (lookup_updateKey_of_ne hkey.symm _ _).trans hentries, ?_⟩
      intro other hother
      rw [hsame other hother, Tree.outputEntry?, Tree.outputEntry?]
      change _ = (((updateKey key change t.entries).lookup outputKey).getD .null).entries.lookup _
      rw [lookup_updateKey_of_ne hkey.symm]
  | @output key hleaf hkey change =>
    obtain ⟨entries, hentries, hsame⟩ := h.output hleaf
    refine ⟨?_, ?_, fun _ => ⟨_, t'.lookup_changeOutput key change, ?_⟩⟩
    · rw [Tree.leaf?_changeOutput, if_neg fun hmeant => hkey hmeant.2, h.leaf?_eq]
    · intro other hother
      have hroot := h.root other hother
      rw [Leaf.rootKey_of_output hleaf] at hother
      rw [t'.lookup_changeOutput_of_ne hother, t.lookup_changeOutput_of_ne hother, hroot]
    · intro other hother
      rw [hentries, Tree.outputEntry?, t.lookup_changeOutput]
      exact lookup_updateKey_congr (fun _ => hsame key hkey) fun _ => hsame other hother

theorem overlay {layer : List (String × Tree)} (h : DiffersAt leaf value t t')
    (hlayer : ∀ entry ∈ layer, (KeyPath.ofKey (lowerKey entry.1)).Spares leaf) :
    DiffersAt leaf value (Tree.overlay layer t) (Tree.overlay layer t') := by
  induction layer generalizing t t' with
  | nil => exact h
  | cons entry rest ih =>
    have hentry := h.change ((hlayer entry List.mem_cons_self).merge entry.2)
    exact ih hentry fun e he => hlayer e (List.mem_cons_of_mem _ he)

end DiffersAt

/-- The variable leads to no place where the value of the leaf is looked for. -/
def VariableSpares (leaf : Leaf) (name : String) : Prop :=
  ∀ key, variableKey? name = some key → (KeyPath.ofKey (lowerKey key)).Spares leaf

theorem environmentLayer_append (first second : List (String × String)) :
    environmentLayer (first ++ second) = environmentLayer first ++ environmentLayer second :=
  List.filterMap_append

theorem Tree.overlay_append (first second : List (String × Tree)) (t : Tree) :
    Tree.overlay (first ++ second) t = Tree.overlay second (Tree.overlay first t) :=
  List.foldl_append

theorem differsAt_merged {leaf : Leaf} {after : List (String × String)}
    (hafter : ∀ v ∈ after, VariableSpares leaf v.1) (file : List (String × Tree))
    (before : List (String × String)) (text : String) :
    DiffersAt leaf (variableValue text) (merged file (environmentLayer (before ++ after)))
      (merged file (environmentLayer (before ++ (leaf.variableName, text) :: after))) := by
  obtain ⟨key, hkey, hpath⟩ := Option.map_eq_some_iff.mp leaf.variableKey?_variableName
  have hlayer : environmentLayer ((leaf.variableName, text) :: after) =
      (key, variableValue text) :: environmentLayer after :=
    List.filterMap_cons_some (congrArg (Option.map fun key => (key, variableValue text)) hkey)
  rw [environmentLayer_append, environmentLayer_append, hlayer, merged, merged, Tree.overlay_append,
    Tree.overlay_append]
  generalize Tree.overlay (environmentLayer before) _ = below
  have hmerge := DiffersAt.merge leaf (variableValue_isPlain text).1 below
  rw [← hpath] at hmerge
  apply hmerge.overlay
  intro entry hentry
  obtain ⟨v, hv, hentry⟩ := List.mem_filterMap.mp hentry
  obtain ⟨key', hkey', rfl⟩ := Option.map_eq_some_iff.mp hentry
  exact hafter v hv key' hkey'

/-! ## Settings read from a tree -/

theorem toOptional_some {β : Type} {decode : Tree → Except SettingsFault β} {t : Tree} {x : β}
    (ht : t ≠ .null) (h : decode t = .ok x) :
    Tree.toOptional decode (some t) = .ok (some x) := by
  cases t with
  | null => exact absurd rfl ht
  | _ => exact congrArg (Except.map some) h

theorem load_eq_ok_iff {readers : Readers} {files : FileTree} {path : Option String}
    {environment : List (String × String)} {settings : Settings} :
    load readers files path environment = .ok settings ↔
      ∃ file, chosenFileLayer readers files path = .ok file ∧
        Reads (merged file (environmentLayer environment)) settings := by
  unfold load
  cases chosenFileLayer readers files path with
  | error e =>
    constructor
    · rintro ⟨⟩
    · rintro ⟨file, ⟨⟩, -⟩
  | ok file =>
    dsimp only
    constructor
    · intro h
      cases htree : ofTree (merged file (environmentLayer environment)) with
      | error e =>
        rw [htree] at h
        cases h
      | ok read =>
        rw [htree] at h
        cases h
        exact ⟨file, rfl, reads_of_ofTree htree⟩
    · rintro ⟨_, ⟨⟩, hreads⟩
      rw [hreads.ofTree_eq]
      rfl

end DenseBench.Settings
