import DenseBench.FileTree

/-!
# Files that are written and read

Writing a file changes what stands at one place, whether the write comes to its end or breaks off. A
file only ends a path, so every path that could be followed before is followed to the same place
afterwards, and what is read there is what was written last.
-/

namespace DenseBench.FileTree

theorem lookup_replace_self (names : List String) (node : FileNode)
    (nodes : List (List String × FileNode)) :
    (replace names node nodes).lookup names = some node := by
  induction nodes with
  | nil => simp [replace]
  | cons entry rest ih =>
    unfold replace
    by_cases h : entry.1 = names
    · rw [if_pos h, List.lookup_cons_self]
    · rw [if_neg h, List.lookup_cons, beq_false_of_ne (Ne.symm h)]
      exact ih

theorem lookup_replace_of_ne {names other : List String} (h : other ≠ names) (node : FileNode)
    (nodes : List (List String × FileNode)) :
    (replace names node nodes).lookup other = nodes.lookup other := by
  induction nodes with
  | nil => simp [replace, h]
  | cons entry rest ih =>
    unfold replace
    by_cases hentry : entry.1 = names
    · rw [if_pos hentry, List.lookup_cons, beq_false_of_ne h, List.lookup_cons, hentry,
        beq_false_of_ne h]
    · rw [if_neg hentry, List.lookup_cons, List.lookup_cons, ih]

theorem isPrefixOf_eq_false {tree : FileTree} {place : List String}
    (h : tree.node? place ≠ some .folder) : place.isPrefixOf tree.workingFolder = false := by
  rw [Bool.eq_false_iff]
  intro hprefix
  exact h (by rw [node?, if_pos hprefix])

theorem node?_put_self {tree : FileTree} {place : List String}
    (h : tree.node? place ≠ some .folder) (node : FileNode) :
    (tree.put place node).node? place = some node := by
  change (if place.isPrefixOf tree.workingFolder then some .folder
    else (replace place node tree.nodes).lookup place) = some node
  rw [isPrefixOf_eq_false h]
  exact lookup_replace_self place node tree.nodes

theorem node?_put_of_ne {place other : List String} (h : other ≠ place) (tree : FileTree)
    (node : FileNode) : (tree.put place node).node? other = tree.node? other := by
  simp only [node?, put, lookup_replace_of_ne h]

theorem walk_cons_eq_ok_iff {tree : FileTree} {name : String} {reached rest folder : List String} :
    tree.walk reached (name :: rest) = .ok folder ↔
      ∃ next, lookUp reached name = .ok next ∧ tree.node? next = some .folder ∧
        tree.walk next rest = .ok folder := by
  rw [walk]
  cases lookUp reached name with
  | error e => simp
  | ok next =>
    dsimp only
    cases hnode : tree.node? next with
    | none => simp [hnode]
    | some node =>
      cases node with
      | file held => simp [hnode]
      | folder => simp [hnode]

theorem follow_eq_ok_iff {tree : FileTree} {p : Path} {reached : List String} :
    tree.follow p = .ok reached ↔
      ∃ folder, tree.walk (p.start tree) p.names.dropLast = .ok folder ∧
        p.names.getLast?.elim (.ok folder) (lookUp folder) = .ok reached := by
  unfold follow
  cases tree.walk (p.start tree) p.names.dropLast with
  | error e => simp
  | ok folder => cases p.names.getLast? <;> simp

theorem locate_eq_ok_iff {tree : FileTree} {path : String} {place : List String}
    {wantsFolder : Bool} :
    tree.locate path = .ok (place, wantsFolder) ↔
      ∃ p, parsePath path = .ok p ∧ p.wantsFolder = wantsFolder ∧
        tree.follow p = .ok place := by
  unfold locate
  cases parsePath path with
  | error e => simp
  | ok p =>
    dsimp only
    cases hfollow : tree.follow p with
    | error e => simp [Except.map, hfollow]
    | ok reached => simp [Except.map, hfollow, and_comm]

section put

variable {tree : FileTree} {place : List String} (h : tree.node? place ≠ some .folder)
  (content : ByteArray)

include h

theorem node?_put_eq_folder_iff (other : List String) :
    (tree.put place (.file content)).node? other = some .folder ↔
      tree.node? other = some .folder := by
  by_cases hne : other = place
  · subst hne
    rw [node?_put_self h]
    constructor
    · intro hfile
      cases hfile
    · intro hfolder
      exact absurd hfolder h
  · rw [node?_put_of_ne hne]

theorem walk_put_eq_ok_iff {names reached folder : List String} :
    (tree.put place (.file content)).walk reached names = .ok folder ↔
      tree.walk reached names = .ok folder := by
  induction names generalizing reached with
  | nil => rfl
  | cons name rest ih =>
    rw [walk_cons_eq_ok_iff, walk_cons_eq_ok_iff]
    -- Folders stay folders and no others come.
    simp only [node?_put_eq_folder_iff h content, ih]

theorem follow_put_eq_ok_iff {p : Path} {reached : List String} :
    (tree.put place (.file content)).follow p = .ok reached ↔ tree.follow p = .ok reached := by
  have hstart : p.start (tree.put place (.file content)) = p.start tree := rfl
  simp only [follow_eq_ok_iff, hstart, walk_put_eq_ok_iff h content]

theorem locate_put_eq_ok_iff {path : String} {located : List String × Bool} :
    (tree.put place (.file content)).locate path = .ok located ↔
      tree.locate path = .ok located := by
  obtain ⟨reached, wantsFolder⟩ := located
  simp only [locate_eq_ok_iff, follow_put_eq_ok_iff h content]

end put

/-- The path leads to a place where a file can stand, and this is what stands there: no bytes, if
there is no file yet. -/
structure Opens (tree : FileTree) (path : String) (place : List String) (held : ByteArray) :
    Prop where
  parsed : ∃ p, parsePath path = .ok p ∧ p.wantsFolder = false ∧ tree.follow p = .ok place
  node : tree.node? place = some (.file held) ∨ tree.node? place = none ∧ held = .empty

theorem openToWrite_eq_ok_iff {tree : FileTree} {path : String} {place : List String}
    {held : ByteArray} :
    tree.openToWrite path = .ok (place, held) ↔ tree.Opens path place held := by
  constructor
  · intro h
    unfold openToWrite at h
    cases hparse : parsePath path with
    | error e =>
      rw [hparse] at h
      cases h
    | ok p =>
      rw [hparse] at h
      dsimp only at h
      cases hfolder : p.wantsFolder with
      | true =>
        rw [hfolder, if_pos rfl] at h
        split at h <;> cases h
      | false =>
        rw [hfolder, if_neg Bool.false_ne_true] at h
        cases hfollow : tree.follow p with
        | error e =>
          rw [hfollow] at h
          cases h
        | ok reached =>
          rw [hfollow] at h
          dsimp only at h
          split at h
          · rename_i hnode
            cases h
            exact ⟨⟨p, hparse, hfolder, hfollow⟩, .inr ⟨hnode, rfl⟩⟩
          · cases h
          · rename_i hnode
            cases h
            exact ⟨⟨p, hparse, hfolder, hfollow⟩, .inl hnode⟩
  · rintro ⟨⟨p, hparse, hfolder, hfollow⟩, hnode⟩
    simp only [openToWrite, hparse, hfolder, Bool.false_eq_true, if_false, hfollow]
    rcases hnode with hnode | ⟨hnode, rfl⟩
    · rw [hnode]
    · rw [hnode]

namespace Opens

variable {tree : FileTree} {path : String} {place : List String} {held : ByteArray}

theorem node_ne_folder (h : tree.Opens path place held) : tree.node? place ≠ some .folder := by
  rcases h.node with hnode | ⟨hnode, -⟩ <;> simp [hnode]

theorem writeBehind_eq (h : tree.Opens path place held) (kept added : ByteArray → ByteArray) :
    tree.writeBehind path kept added =
      match tree.mishap? place (kept held ++ added held) with
      | none => (.ok (), tree.put place (.file (kept held ++ added held)))
      | some (.refused fault) => (.error ⟨fault, false⟩, tree)
      | some (.brokenOff written early fault) =>
        (.error ⟨fault, early⟩, tree.put place (.file (kept held ++ written))) := by
  rcases hmishap : tree.mishap? place (kept held ++ added held) with
    _ | fault | ⟨written, early, fault⟩ <;>
  simp only [writeBehind, openToWrite_eq_ok_iff.mpr h, hmishap]

theorem writeBehind_eq_ok (h : tree.Opens path place held) (kept added : ByteArray → ByteArray)
    (hsteady : tree.mishap? place (kept held ++ added held) = none) :
    tree.writeBehind path kept added =
      (.ok (), tree.put place (.file (kept held ++ added held))) := by
  rw [h.writeBehind_eq, hsteady]

theorem write_eq_ok (h : tree.Opens path place held) {content : ByteArray}
    (hsteady : tree.mishap? place content = none) :
    tree.write path content = (.ok (), tree.put place (.file content)) := by
  have hwrite := h.writeBehind_eq_ok (fun _ => .empty) fun _ => content
  rw [ByteArray.empty_append] at hwrite
  exact hwrite hsteady

theorem append_eq_ok (h : tree.Opens path place held) {added : Bool → ByteArray}
    (hsteady : tree.mishap? place (held ++ added held.isEmpty) = none) :
    tree.append path added = (.ok (), tree.put place (.file (held ++ added held.isEmpty))) :=
  h.writeBehind_eq_ok id (fun held => added held.isEmpty) hsteady

theorem put_self (h : tree.Opens path place held) (content : ByteArray) :
    (tree.put place (.file content)).Opens path place content := by
  obtain ⟨p, hparse, hfolder, hfollow⟩ := h.parsed
  exact ⟨⟨p, hparse, hfolder, (follow_put_eq_ok_iff h.node_ne_folder content).mpr hfollow⟩,
    .inl (node?_put_self h.node_ne_folder _)⟩

/-- A file that is written elsewhere changes neither where a path leads nor what stands there. -/
theorem put_iff_of_ne {other : List String} (hne : place ≠ other)
    (hother : tree.node? other ≠ some .folder) (content : ByteArray) :
    (tree.put other (.file content)).Opens path place held ↔ tree.Opens path place held := by
  constructor
  · rintro ⟨⟨p, hparse, hfolder, hput⟩, hnode⟩
    rw [node?_put_of_ne hne] at hnode
    exact ⟨⟨p, hparse, hfolder, (follow_put_eq_ok_iff hother content).mp hput⟩, hnode⟩
  · rintro ⟨⟨p, hparse, hfolder, htree⟩, hnode⟩
    rw [← node?_put_of_ne hne] at hnode
    exact ⟨⟨p, hparse, hfolder, (follow_put_eq_ok_iff hother content).mpr htree⟩, hnode⟩

theorem unique {place' : List String} {held' : ByteArray} (h : tree.Opens path place held)
    (h' : tree.Opens path place' held') : place' = place ∧ held' = held := by
  have hopened := (openToWrite_eq_ok_iff.mpr h').symm.trans (openToWrite_eq_ok_iff.mpr h)
  exact Prod.mk.inj (Except.ok.inj hopened)

theorem locate_eq (h : tree.Opens path place held) : tree.locate path = .ok (place, false) :=
  locate_eq_ok_iff.mpr h.parsed

theorem read_eq (h : tree.Opens path place held) (hnode : tree.node? place = some (.file held)) :
    tree.read path = .ok held := by
  simp only [read, h.locate_eq, hnode, Bool.false_eq_true, if_false]

theorem read_of_ne_empty (h : tree.Opens path place held) (hne : held ≠ .empty) :
    tree.read path = .ok held :=
  h.read_eq (h.node.resolve_right fun hnone => hne hnone.2)

theorem read_put_self (h : tree.Opens path place held) (content : ByteArray) :
    (tree.put place (.file content)).read path = .ok content :=
  (h.put_self content).read_eq (node?_put_self h.node_ne_folder _)

end Opens

/-! ## Whatever becomes of a write -/

/-- All that a write can do: fail with nothing done, or change the file that the path opens, whether
it comes to its end or not. -/
theorem writeBehind_cases (tree : FileTree) (path : String) (kept added : ByteArray → ByteArray) :
    (∃ stop, tree.writeBehind path kept added = (.error stop, tree)) ∨
      ∃ place held, tree.Opens path place held ∧
        (tree.writeBehind path kept added =
            (.ok (), tree.put place (.file (kept held ++ added held))) ∨
          ∃ stop written, tree.writeBehind path kept added =
            (.error stop, tree.put place (.file (kept held ++ written)))) := by
  cases hopen : tree.openToWrite path with
  | error fault => exact .inl ⟨⟨fault, false⟩, by rw [writeBehind, hopen]⟩
  | ok opened =>
    obtain ⟨place, held⟩ := opened
    have hopens := openToWrite_eq_ok_iff.mp hopen
    rw [hopens.writeBehind_eq]
    rcases tree.mishap? place (kept held ++ added held) with _ | fault | ⟨written, early, fault⟩
    · exact .inr ⟨place, held, hopens, .inl rfl⟩
    · exact .inl ⟨_, rfl⟩
    · exact .inr ⟨place, held, hopens, .inr ⟨_, written, rfl⟩⟩

theorem exists_of_writeBehind_ok {tree after : FileTree} {path : String}
    {kept added : ByteArray → ByteArray}
    (h : tree.writeBehind path kept added = (.ok (), after)) :
    ∃ place held, tree.Opens path place held ∧
      after = tree.put place (.file (kept held ++ added held)) := by
  rcases writeBehind_cases tree path kept added with
    ⟨stop, hwrite⟩ | ⟨place, held, hopens, hwrite | ⟨stop, written, hwrite⟩⟩
  · rw [hwrite] at h
    cases h
  · rw [hwrite] at h
    cases h
    exact ⟨place, held, hopens, rfl⟩
  · rw [hwrite] at h
    cases h

theorem exists_of_write_ok {tree after : FileTree} {path : String} {content : ByteArray}
    (h : tree.write path content = (.ok (), after)) :
    ∃ place held, tree.Opens path place held ∧ after = tree.put place (.file content) := by
  obtain ⟨place, held, hopens, hafter⟩ := exists_of_writeBehind_ok h
  rw [ByteArray.empty_append] at hafter
  exact ⟨place, held, hopens, hafter⟩

theorem exists_of_append_ok {tree after : FileTree} {path : String} {added : Bool → ByteArray}
    (h : tree.append path added = (.ok (), after)) :
    ∃ place held, tree.Opens path place held ∧
      after = tree.put place (.file (held ++ added held.isEmpty)) :=
  exists_of_writeBehind_ok h

/-- Whatever becomes of it, adding to a file leaves in front what the file held. -/
theorem Opens.exists_append {tree : FileTree} {path : String} {place : List String}
    {held : ByteArray} (h : tree.Opens path place held) (added : Bool → ByteArray) :
    ∃ more, (tree.append path added).2.Opens path place (held ++ more) := by
  rcases writeBehind_cases tree path id fun held => added held.isEmpty with
    ⟨stop, hwrite⟩ | ⟨place', held', hopens, hwrite | ⟨stop, written, hwrite⟩⟩
  · refine ⟨.empty, ?_⟩
    rw [append, hwrite, ByteArray.append_empty]
    exact h
  · obtain ⟨rfl, rfl⟩ := h.unique hopens
    refine ⟨added held'.isEmpty, ?_⟩
    rw [append, hwrite]
    exact h.put_self _
  · obtain ⟨rfl, rfl⟩ := h.unique hopens
    refine ⟨written, ?_⟩
    rw [append, hwrite]
    exact h.put_self _

/-- No more has changed than what stands where the paths lead, and no path leads elsewhere. -/
structure ChangedAt (paths : List String) (before after : FileTree) : Prop where
  node?_eq : ∀ place, (∀ path ∈ paths, before.locate path ≠ .ok (place, false)) →
    after.node? place = before.node? place
  locate_iff : ∀ path located, after.locate path = .ok located ↔ before.locate path = .ok located

namespace ChangedAt

variable {paths : List String} {before between after : FileTree}

theorem refl (paths : List String) (tree : FileTree) : ChangedAt paths tree tree :=
  ⟨fun _ _ => rfl, fun _ _ => .rfl⟩

theorem trans (h : ChangedAt paths before between) (h' : ChangedAt paths between after) :
    ChangedAt paths before after where
  node?_eq place hplace := by
    rw [h'.node?_eq place fun path hpath hlocate =>
      hplace path hpath ((h.locate_iff path _).mp hlocate), h.node?_eq place hplace]
  locate_iff path located := (h'.locate_iff path located).trans (h.locate_iff path located)

theorem put {tree : FileTree} {path : String} {place : List String} {held : ByteArray}
    (h : tree.Opens path place held) (hpath : path ∈ paths) (content : ByteArray) :
    ChangedAt paths tree (tree.put place (.file content)) where
  node?_eq other hother := by
    refine node?_put_of_ne ?_ tree _
    rintro rfl
    exact hother path hpath h.locate_eq
  locate_iff _ _ := locate_put_eq_ok_iff h.node_ne_folder content

theorem writeBehind {path : String} (hpath : path ∈ paths) (tree : FileTree)
    (kept added : ByteArray → ByteArray) :
    ChangedAt paths tree (tree.writeBehind path kept added).2 := by
  rcases writeBehind_cases tree path kept added with
    ⟨stop, hwrite⟩ | ⟨place, held, hopens, hwrite | ⟨stop, written, hwrite⟩⟩
  · rw [hwrite]
    exact refl paths tree
  · rw [hwrite]
    exact put hopens hpath _
  · rw [hwrite]
    exact put hopens hpath _

end ChangedAt

theorem fromUTF8?_toUTF8 (s : String) : String.fromUTF8? s.toUTF8 = some s := by
  unfold String.fromUTF8?
  rw [String.toUTF8_eq_toByteArray, dif_pos s.isValidUTF8]
  rfl

theorem readText_eq_ok {tree : FileTree} {path s : String} (h : tree.read path = .ok s.toUTF8) :
    tree.readText path = .ok s := by
  rw [readText, h]
  simp only [fromUTF8?_toUTF8]

end DenseBench.FileTree
