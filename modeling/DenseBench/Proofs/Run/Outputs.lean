import DenseBench.Proofs.Run.Document
import DenseBench.Proofs.Run.Table

/-!
# Files that a run writes

Whatever becomes of the writes, only places change that a named path leads to, and the only thing
that can fail is that a file cannot be written. When all goes well, each file holds what was meant
for it.
-/

namespace DenseBench

/-- A fault of a file that is written, told by itself or by the table's writer. -/
def Error.OfFile (e : Error) : Prop :=
  ∃ fault, e = .file fault ∨ e = .csv fault

namespace Run.Record

variable {r : Record} {json csv : Option String} {path : String} {tree after : FileTree} {e : Error}

theorem ofFile_of_save_error (h : (r.save (m := StateM FileTree) path tree).1 = .error e) :
    e.OfFile := by
  rw [save_eq] at h
  obtain ⟨stop, -, rfl⟩ := mapError_eq_error_iff.mp h
  exact ⟨stop.fault, .inl rfl⟩

theorem ofFile_of_appendCsv_error
    (h : (r.appendCsv (m := StateM FileTree) path tree).1 = .error e) : e.OfFile := by
  rw [appendCsv_eq] at h
  obtain ⟨stop, -, rfl⟩ := mapError_eq_error_iff.mp h
  refine ⟨stop.fault, ?_⟩
  split
  · exact .inr rfl
  · exact .inl rfl

/-! ## One write after the other -/

theorem writeTo_some (r : Record) (path : String) (csv : Option String) (tree : FileTree) :
    r.writeTo (m := StateM FileTree) (some path) csv tree =
      match r.save (m := StateM FileTree) path tree with
      | (.ok (), after) => r.writeTo (m := StateM FileTree) none csv after
      | (.error e, after) => (.error e, after) := by
  change (r.save (m := StateM FileTree) path >>= fun _ => r.writeTo none csv) tree = _
  rw [step_bind_apply]
  rcases r.save (m := StateM FileTree) path tree with ⟨_ | _, _⟩ <;> rfl

theorem writeTo_of_save_error (h : r.save (m := StateM FileTree) path tree = (.error e, after)) :
    r.writeTo (m := StateM FileTree) (some path) csv tree = (.error e, after) := by
  rw [writeTo_some, h]

theorem ofFile_of_writeTo_error
    (h : (r.writeTo (m := StateM FileTree) json csv tree).1 = .error e) : e.OfFile := by
  have htable : ∀ tree, (r.writeTo (m := StateM FileTree) none csv tree).1 = .error e →
      e.OfFile := by
    intro tree h
    cases csv with
    | none => cases h
    | some other => exact ofFile_of_appendCsv_error h
  cases json with
  | none => exact htable tree h
  | some path =>
    rw [writeTo_some] at h
    rcases hsave : r.save (m := StateM FileTree) path tree with ⟨_ | _, after⟩
    · rw [hsave] at h
      exact ofFile_of_save_error ((congrArg Prod.fst hsave).trans h)
    · rw [hsave] at h
      exact htable after h

theorem changedAt_save {paths : List String} (h : path ∈ paths) (r : Record) (tree : FileTree) :
    FileTree.ChangedAt paths tree (r.save (m := StateM FileTree) path tree).2 :=
  .writeBehind h tree _ _

theorem changedAt_appendCsv {paths : List String} (h : path ∈ paths) (r : Record)
    (tree : FileTree) :
    FileTree.ChangedAt paths tree (r.appendCsv (m := StateM FileTree) path tree).2 :=
  .writeBehind h tree _ _

theorem changedAt_writeTo (r : Record) (json csv : Option String) (tree : FileTree) :
    FileTree.ChangedAt (json.toList ++ csv.toList) tree
      (r.writeTo (m := StateM FileTree) json csv tree).2 := by
  have htable : ∀ tree, FileTree.ChangedAt (json.toList ++ csv.toList) tree
      (r.writeTo (m := StateM FileTree) none csv tree).2 := by
    intro tree
    cases csv with
    | none => exact .refl _ tree
    | some other =>
      have hother : other ∈ json.toList ++ (some other).toList := by simp
      exact changedAt_appendCsv hother r tree
  cases json with
  | none => exact htable tree
  | some path =>
    have hpath : path ∈ (some path).toList ++ csv.toList := by simp
    have hdocument := changedAt_save hpath r tree
    rw [writeTo_some]
    rcases hsave : r.save (m := StateM FileTree) path tree with ⟨_ | _, after⟩
    · rw [hsave] at hdocument
      exact hdocument
    · rw [hsave] at hdocument
      exact hdocument.trans (htable after)

/-! ## Writes that succeed -/

/-- Each named file holds what was meant for it, unless both names lead to one file. -/
structure Written (r : Record) (json csv : Option String) (before after : FileTree) : Prop where
  document : ∀ path, json = some path →
    (∀ other, csv = some other → before.locate path ≠ before.locate other) →
    after.read path = .ok r.toJson.toText.toUTF8
  table : ∀ path, csv = some path →
    (∀ other, json = some other → before.locate other ≠ before.locate path) →
    ∃ place held line, before.openToWrite path = .ok (place, held) ∧
      after.read path = .ok (held ++ String.toUTF8 line) ∧ Tabulates line held.isEmpty [r]

theorem exists_of_writeTo_some_ok
    (h : r.writeTo (m := StateM FileTree) (some path) csv tree = (.ok (), after)) :
    ∃ place held, tree.Opens path place held ∧
      r.writeTo (m := StateM FileTree) none csv
        (tree.put place (.file r.toJson.toText.toUTF8)) = (.ok (), after) := by
  rw [writeTo_some] at h
  rcases hsave : r.save (m := StateM FileTree) path tree with ⟨_ | _, between⟩
  · rw [hsave] at h
    cases h
  · rw [hsave] at h
    obtain ⟨place, held, hopens, rfl⟩ := exists_of_save_ok hsave
    exact ⟨place, held, hopens, h⟩

theorem written_of_writeTo (h : r.writeTo (m := StateM FileTree) json csv tree = (.ok (), after)) :
    r.Written json csv tree after := by
  cases json with
  | none =>
    cases csv with
    | none => exact ⟨nofun, nofun⟩
    | some path =>
      obtain ⟨place, held, hopens, rfl⟩ := exists_of_appendCsv_ok h
      refine ⟨nofun, ?_⟩
      rintro _ ⟨⟩ -
      exact ⟨place, held, _, FileTree.openToWrite_eq_ok_iff.mpr hopens, hopens.read_put_self _,
        r.tabulates_csvAddition held.isEmpty⟩
  | some path =>
    obtain ⟨place, held, hopens, hrest⟩ := exists_of_writeTo_some_ok h
    cases csv with
    | none =>
      cases hrest
      refine ⟨?_, nofun⟩
      rintro _ ⟨⟩ -
      exact hopens.read_put_self _
    | some other =>
      obtain ⟨place', held', hopens', rfl⟩ := exists_of_appendCsv_ok hrest
      have hlocate' : tree.locate other = .ok (place', false) :=
        (FileTree.locate_put_eq_ok_iff hopens.node_ne_folder _).mp hopens'.locate_eq
      constructor
      · rintro _ ⟨⟩ hdistinct
        have hne : place ≠ place' := by
          rintro rfl
          exact hdistinct other rfl (hopens.locate_eq.trans hlocate'.symm)
        have hkept := (FileTree.Opens.put_iff_of_ne hne hopens'.node_ne_folder
          (held' ++ (r.csvAddition held'.isEmpty).toUTF8)).mpr
          (hopens.put_self r.toJson.toText.toUTF8)
        exact hkept.read_eq ((FileTree.node?_put_of_ne hne _ _).trans
          (FileTree.node?_put_self hopens.node_ne_folder _))
      · rintro _ ⟨⟩ hdistinct
        have hne : place' ≠ place := by
          rintro rfl
          exact hdistinct path rfl (hopens.locate_eq.trans hlocate'.symm)
        have hbefore := (FileTree.Opens.put_iff_of_ne hne hopens.node_ne_folder _).mp hopens'
        exact ⟨place', held', _, FileTree.openToWrite_eq_ok_iff.mpr hbefore,
          hopens'.read_put_self _, r.tabulates_csvAddition held'.isEmpty⟩

end Run.Record

end DenseBench
