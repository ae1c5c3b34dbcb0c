import DenseBench.Proofs.Calendar.Timestamp
import DenseBench.Proofs.Csv
import DenseBench.Proofs.FileTree
import DenseBench.Proofs.Traversal
import DenseBench.Run.Record

/-!
# Tables that grow

A table is only ever added to: its header with the first line, one line a run after that. What is
read from lines that runs have added is the header, where there is one, and the fields of each
record.
-/

namespace DenseBench.Run.Record

open Text

/-- The text reads as the names of the columns, if they are to stand in front, and as one row for
each record in turn. -/
def Tabulates (text : String) (withHeader : Bool) (rs : List Record) : Prop :=
  Csv.read text.toList =
    ((if withHeader then
        [["timestamp", "script", "engine", "dtype", "size", "elapsed_secs", "seed", "summary",
          "hostname", "cpu_threads", "git_commit"]]
      else []) ++
      rs.map fun r =>
        [r.timestamp.fieldText, r.script, r.engine.name, r.dtype.name, r.sizeLabel,
          Decimal.Layout.field.render r.elapsedSecs, numeralText r.seed.toNat, r.summary,
          r.host.hostname, numeralText r.host.cpuThreads.toNat, r.host.shortCommit]).map
      fun fields => fields.map String.toList

def appendAll (path : String) (rs : List Record) : ExceptT Error (StateM FileTree) Unit :=
  rs.forM fun r => r.appendCsv path

/-- What a table holds after records have been added. -/
def grown (held : ByteArray) (rs : List Record) : ByteArray :=
  rs.foldl (fun held r => held ++ (r.csvAddition held.isEmpty).toUTF8) held

def linesOf (rs : List Record) : String :=
  String.join (rs.map fun r => csvLine r.columns)

theorem isEmpty_eq_false {bytes : ByteArray} (h : bytes ≠ .empty) : bytes.isEmpty = false := by
  rw [ByteArray.isEmpty, beq_eq_false_iff_ne]
  exact fun hsize => h (ByteArray.size_eq_zero_iff.mp hsize)

theorem append_ne_empty {bytes : ByteArray} (h : bytes ≠ .empty) (added : ByteArray) :
    bytes ++ added ≠ .empty := by
  intro hempty
  have hsize := congrArg ByteArray.size hempty
  rw [ByteArray.size_append] at hsize
  have hzero : bytes.size + added.size = 0 := hsize
  exact h (ByteArray.size_eq_zero_iff.mp (by omega))

theorem toUTF8_append (s t : String) : (s ++ t).toUTF8 = s.toUTF8 ++ t.toUTF8 := by
  simp only [String.toUTF8_eq_toByteArray, String.toByteArray_append]

theorem csvAddition_of_ne_empty {held : ByteArray} (h : held ≠ .empty) (r : Record) :
    r.csvAddition held.isEmpty = csvLine r.columns := by
  rw [csvAddition, isEmpty_eq_false h, if_neg Bool.false_ne_true, String.empty_append]

theorem grown_of_ne_empty {held : ByteArray} (h : held ≠ .empty) (rs : List Record) :
    grown held rs = held ++ (linesOf rs).toUTF8 := by
  induction rs generalizing held with
  | nil => exact ByteArray.append_empty.symm
  | cons r rs ih =>
    change grown (held ++ (r.csvAddition held.isEmpty).toUTF8) rs = _
    rw [ih (append_ne_empty h _), csvAddition_of_ne_empty h, ByteArray.append_assoc,
      ← toUTF8_append, linesOf, linesOf, List.map_cons, String.join_cons]

theorem header_ne_empty (s : String) : (csvLine columnNames ++ s).toUTF8 ≠ .empty := by
  rw [toUTF8_append]
  apply append_ne_empty
  decide +kernel

theorem grown_empty (r : Record) (rs : List Record) :
    grown .empty (r :: rs) = (csvLine columnNames ++ linesOf (r :: rs)).toUTF8 := by
  change grown (.empty ++ (csvLine columnNames ++ csvLine r.columns).toUTF8) rs = _
  rw [ByteArray.empty_append, grown_of_ne_empty (header_ne_empty _), ← toUTF8_append,
    String.append_assoc, linesOf, linesOf, List.map_cons, String.join_cons]

theorem toList_linesOf (rs : List Record) :
    (linesOf rs).toList =
      (rs.map fun r => r.columns.map String.toList).flatMap Csv.writeRecord := by
  rw [linesOf, String.toList_join, List.flatMap_map, List.flatMap_map]
  simp only [csvLine, String.toList_ofList]

theorem head?_fieldText_append (t : Calendar.Timestamp) (rest : List Char) :
    (t.fieldText.toList ++ rest).head? ≠ some '\ufeff' := by
  rw [Calendar.Timestamp.fieldText, String.toList_ofList, Calendar.Timestamp.render]
  simp only [List.append_assoc]
  exact Calendar.Timestamp.head?_yearText_append _ _

theorem head?_linesOf (rs : List Record) : (linesOf rs).toList.head? ≠ some '\ufeff' := by
  rw [toList_linesOf]
  cases rs with
  | nil => nofun
  | cons r rs =>
    rw [List.map_cons, List.flatMap_cons, columns, List.map_cons, List.map_cons,
      Csv.writeRecord_cons, Csv.line_cons, List.append_assoc]
    exact Csv.head?_writeField_append (head?_fieldText_append r.timestamp _)

theorem tabulates_lines (withHeader : Bool) (rs : List Record) :
    Tabulates ((if withHeader then csvLine columnNames else "") ++ linesOf rs) withHeader rs := by
  have hrows : ∀ row ∈ ((if withHeader then [columnNames] else []) ++ rs.map columns).map
      (fun fields => fields.map String.toList), 2 ≤ row.length := by
    intro row hrow
    obtain ⟨fields, hfields, rfl⟩ := List.mem_map.mp hrow
    rw [List.length_map]
    rcases List.mem_append.mp hfields with hfields | hfields
    · cases withHeader with
      | true =>
        rw [List.mem_singleton.mp hfields]
        decide
      | false => cases hfields
    · obtain ⟨r, -, rfl⟩ := List.mem_map.mp hfields
      exact (by decide : 2 ≤ 11)
  have htext : ((if withHeader then csvLine columnNames else "") ++ linesOf rs).toList =
      (((if withHeader then [columnNames] else []) ++ rs.map columns).map
        fun fields => fields.map String.toList).flatMap Csv.writeRecord := by
    rw [String.toList_append, toList_linesOf, List.map_append, List.flatMap_append, List.map_map]
    cases withHeader with
    | true => rfl
    | false => rfl
  have hmark : ((if withHeader then csvLine columnNames else "") ++ linesOf rs).toList.head? ≠
      some '\ufeff' := by
    cases withHeader with
    | true =>
      have hhead : (csvLine columnNames).toList.head? = some 't' := by decide +kernel
      rw [if_pos rfl, String.toList_append, List.head?_append, hhead, Option.some_or]
      decide
    | false =>
      rw [if_neg Bool.false_ne_true, String.empty_append]
      exact head?_linesOf rs
  rw [htext] at hmark
  rw [Tabulates, htext]
  exact Csv.read_lines hrows hmark

theorem tabulates_csvAddition (r : Record) (isEmpty : Bool) :
    Tabulates (r.csvAddition isEmpty) isEmpty [r] := by
  have htext := tabulates_lines isEmpty [r]
  rwa [linesOf, List.map_singleton, String.join_cons, String.join_nil, String.append_empty] at htext

theorem Tabulates.length_read {text : String} {rs : List Record} (h : Tabulates text true rs) :
    (Csv.read text.toList).length = rs.length + 1 := by
  rw [Tabulates] at h
  rw [h, List.length_map, List.length_append, List.length_map]
  exact Nat.add_comm 1 _

theorem Tabulates.length_of_mem_read {text : String} {withHeader : Bool} {rs : List Record}
    (h : Tabulates text withHeader rs) {fields : List (List Char)}
    (hfields : fields ∈ Csv.read text.toList) : fields.length = 11 := by
  rw [Tabulates] at h
  rw [h] at hfields
  obtain ⟨texts, htexts, rfl⟩ := List.mem_map.mp hfields
  rw [List.length_map]
  rcases List.mem_append.mp htexts with htexts | htexts
  · split at htexts
    · rw [List.mem_singleton.mp htexts]
      rfl
    · cases htexts
  · obtain ⟨r, -, rfl⟩ := List.mem_map.mp htexts
    rfl

/-! ## One call -/

variable {tree : FileTree} {path : String} {place : List String} {held : ByteArray}

theorem appendCsv_eq (r : Record) (path : String) (tree : FileTree) :
    r.appendCsv (m := StateM FileTree) path tree =
      ((tree.append path fun isEmpty => (r.csvAddition isEmpty).toUTF8).1.mapError fun stop =>
          if stop.early then .csv stop.fault else .file stop.fault,
        (tree.append path fun isEmpty => (r.csvAddition isEmpty).toUTF8).2) :=
  rfl

theorem appendCsv_eq_ok (h : tree.Opens path place held)
    (hsteady : ∀ bytes, tree.mishap? place bytes = none) (r : Record) :
    r.appendCsv (m := StateM FileTree) path tree =
      (.ok (), tree.put place (.file (held ++ (r.csvAddition held.isEmpty).toUTF8))) := by
  rw [appendCsv_eq, h.append_eq_ok (hsteady _)]
  rfl

theorem exists_of_appendCsv_ok {r : Record} {after : FileTree}
    (h : r.appendCsv (m := StateM FileTree) path tree = (.ok (), after)) :
    ∃ place held, tree.Opens path place held ∧
      after = tree.put place (.file (held ++ (r.csvAddition held.isEmpty).toUTF8)) := by
  rw [appendCsv_eq] at h
  obtain ⟨hresult, hafter⟩ := Prod.mk.inj h
  exact FileTree.exists_of_append_ok (Prod.ext (mapError_eq_ok_iff.mp hresult) hafter)

theorem opens_of_appendCsv_ok (h : tree.Opens path place held) {r : Record} {after : FileTree}
    (hr : r.appendCsv (m := StateM FileTree) path tree = (.ok (), after)) :
    after.Opens path place (held ++ (r.csvAddition held.isEmpty).toUTF8) := by
  obtain ⟨place', held', hopens, rfl⟩ := exists_of_appendCsv_ok hr
  obtain ⟨rfl, rfl⟩ := h.unique hopens
  exact h.put_self _

/-! ## One call after the other -/

theorem appendAll_cons (path : String) (r : Record) (rs : List Record) (tree : FileTree) :
    appendAll path (r :: rs) tree =
      match r.appendCsv (m := StateM FileTree) path tree with
      | (.ok (), after) => appendAll path rs after
      | (.error e, after) => (.error e, after) := by
  change (r.appendCsv path >>= fun _ => appendAll path rs) tree = _
  rw [step_bind_apply]
  rcases r.appendCsv (m := StateM FileTree) path tree with ⟨_ | _, _⟩ <;> rfl

theorem exists_of_appendAll_cons_ok {r : Record} {rs : List Record} {final : FileTree}
    (h : appendAll path (r :: rs) tree = (.ok (), final)) :
    ∃ after, r.appendCsv (m := StateM FileTree) path tree = (.ok (), after) ∧
      appendAll path rs after = (.ok (), final) := by
  rw [appendAll_cons] at h
  rcases hr : r.appendCsv (m := StateM FileTree) path tree with ⟨e | _, after⟩
  · rw [hr] at h
    cases h
  · rw [hr] at h
    exact ⟨after, rfl, h⟩

theorem exists_of_appendAll_append_ok {earlier later : List Record} {final : FileTree}
    (h : appendAll path (earlier ++ later) tree = (.ok (), final)) :
    ∃ before, appendAll path earlier tree = (.ok (), before) ∧
      appendAll path later before = (.ok (), final) := by
  induction earlier generalizing tree with
  | nil => exact ⟨tree, rfl, h⟩
  | cons r earlier ih =>
    obtain ⟨after, hr, hrest⟩ := exists_of_appendAll_cons_ok h
    obtain ⟨before, hbefore, hlater⟩ := ih hrest
    refine ⟨before, ?_, hlater⟩
    rw [appendAll_cons, hr]
    exact hbefore

theorem opens_of_appendAll_ok (h : tree.Opens path place held) {rs : List Record}
    {final : FileTree} (hall : appendAll path rs tree = (.ok (), final)) :
    final.Opens path place (grown held rs) := by
  induction rs generalizing tree held with
  | nil =>
    cases hall
    exact h
  | cons r rs ih =>
    obtain ⟨after, hr, hrest⟩ := exists_of_appendAll_cons_ok hall
    exact ih (opens_of_appendCsv_ok h hr) hrest

theorem exists_appendAll_ok (h : tree.Opens path place held)
    (hsteady : ∀ bytes, tree.mishap? place bytes = none) (rs : List Record) :
    ∃ final, appendAll path rs tree = (.ok (), final) := by
  induction rs generalizing tree held with
  | nil => exact ⟨tree, rfl⟩
  | cons r rs ih =>
    rw [appendAll_cons, appendCsv_eq_ok h hsteady]
    exact ih (h.put_self _) hsteady

/-- Whatever becomes of the calls, what the file held stays in front. -/
theorem exists_opens_appendAll (h : tree.Opens path place held) (rs : List Record) :
    ∃ added, (appendAll path rs tree).2.Opens path place (held ++ added) := by
  induction rs generalizing tree held with
  | nil => exact ⟨.empty, by rwa [ByteArray.append_empty]⟩
  | cons r rs ih =>
    obtain ⟨more, hmore⟩ := h.exists_append fun isEmpty => (r.csvAddition isEmpty).toUTF8
    rw [appendAll_cons, appendCsv_eq]
    cases (tree.append path fun isEmpty => (r.csvAddition isEmpty).toUTF8).1 with
    | error stop => exact ⟨more, hmore⟩
    | ok _ =>
      obtain ⟨added, hadded⟩ := ih hmore
      rw [ByteArray.append_assoc] at hadded
      exact ⟨more ++ added, hadded⟩

theorem grown_ne_empty (held : ByteArray) {rs : List Record} (hrs : rs ≠ []) :
    grown held rs ≠ .empty := by
  obtain ⟨r, rs, rfl⟩ := List.exists_cons_of_ne_nil hrs
  by_cases h : held = .empty
  · subst h
    rw [grown_empty]
    exact header_ne_empty _
  · rw [grown_of_ne_empty h]
    exact append_ne_empty h _

/-- What a table comes to when records are added to it one after the other. -/
structure TableGrows (path : String) (rs : List Record) (tree : FileTree) : Prop where
  /-- No call fails where the file can be opened and nothing breaks a write off. -/
  succeeds : ∀ opened, tree.openToWrite path = .ok opened →
    (∀ bytes, tree.mishap? opened.1 bytes = none) →
    ∃ final, appendAll path rs tree = (.ok (), final)
  /-- A table that was empty or absent reads as the header, once, and a row of 11 fields a call. -/
  begun : ∀ place final, tree.openToWrite path = .ok (place, .empty) →
    appendAll path rs tree = (.ok (), final) →
    ∃ text, final.readText path = .ok text ∧ Tabulates text true rs ∧
      (Csv.read text.toList).length = rs.length + 1 ∧
      ∀ fields ∈ Csv.read text.toList, fields.length = 11
  /-- Other content stays in front, and only rows come behind it. -/
  continued : ∀ place held final, tree.openToWrite path = .ok (place, held) → held ≠ .empty →
    appendAll path rs tree = (.ok (), final) →
    ∃ rows, final.read path = .ok (held ++ rows.toUTF8) ∧ Tabulates rows false rs
  /-- Each call leaves the bytes of the file in front and adds its own row, below the header if
  there was nothing yet. -/
  eachAdds : ∀ final earlier r later, rs = earlier ++ r :: later →
    appendAll path rs tree = (.ok (), final) →
    ∃ before place held after line, appendAll path earlier tree = (.ok (), before) ∧
      before.openToWrite path = .ok (place, held) ∧
      r.appendCsv (m := StateM FileTree) path before = (.ok (), after) ∧
      after.read path = .ok (held ++ line.toUTF8) ∧ Tabulates line held.isEmpty [r] ∧
      appendAll path later after = (.ok (), final)
  /-- Also where a call fails, the bytes that the file held stay in front. -/
  keeps : ∀ place held, tree.openToWrite path = .ok (place, held) →
    ∃ added, (appendAll path rs tree).2.openToWrite path = .ok (place, held ++ added)

theorem read_appendAll (path : String) {rs : List Record} (hrs : rs ≠ []) (tree : FileTree) :
    TableGrows path rs tree where
  succeeds := by
    rintro ⟨place, held⟩ hopen hsteady
    exact exists_appendAll_ok (FileTree.openToWrite_eq_ok_iff.mp hopen) hsteady rs
  begun := by
    intro place final hopen hall
    have hopens := FileTree.openToWrite_eq_ok_iff.mp hopen
    have hread := (opens_of_appendAll_ok hopens hall).read_of_ne_empty (grown_ne_empty _ hrs)
    have htable : Tabulates (csvLine columnNames ++ linesOf rs) true rs := tabulates_lines true rs
    obtain ⟨r, rs, rfl⟩ := List.exists_cons_of_ne_nil hrs
    rw [grown_empty] at hread
    exact ⟨_, FileTree.readText_eq_ok hread, htable, htable.length_read,
      fun fields => htable.length_of_mem_read⟩
  continued := by
    intro place held final hopen hne hall
    have hopens := FileTree.openToWrite_eq_ok_iff.mp hopen
    have hread := (opens_of_appendAll_ok hopens hall).read_of_ne_empty (grown_ne_empty _ hrs)
    rw [grown_of_ne_empty hne] at hread
    have hrows := tabulates_lines false rs
    rw [if_neg Bool.false_ne_true, String.empty_append] at hrows
    exact ⟨_, hread, hrows⟩
  eachAdds := by
    rintro final earlier r later rfl hall
    obtain ⟨before, hearlier, hrest⟩ := exists_of_appendAll_append_ok hall
    obtain ⟨after, hr, hlater⟩ := exists_of_appendAll_cons_ok hrest
    obtain ⟨place, held, hopens, rfl⟩ := exists_of_appendCsv_ok hr
    exact ⟨before, place, held, _, _, hearlier, FileTree.openToWrite_eq_ok_iff.mpr hopens, hr,
      hopens.read_put_self _, r.tabulates_csvAddition held.isEmpty, hlater⟩
  keeps := by
    intro place held hopen
    obtain ⟨added, hadded⟩ :=
      exists_opens_appendAll (FileTree.openToWrite_eq_ok_iff.mp hopen) rs
    exact ⟨added, FileTree.openToWrite_eq_ok_iff.mpr hadded⟩

/-- A record whose fields hold all that has to be quoted. -/
def quotedRecord : Record where
  script := "a \"quoted\", name"
  engine := .parallel
  dtype := .float32
  sizes := [2, 3]
  elapsedSecs := 0.25
  seed := 17
  summary := "two\r\nlines\n"
  timestamp := ⟨1700000000, 0⟩
  host := ⟨"", "os", "cpu", 1, 8, 1024, "0123456789", true⟩

theorem read_appendAll_quotedRecord :
    ∃ final text, appendAll "runs.csv" [quotedRecord, quotedRecord] {} = (.ok (), final) ∧
      final.readText "runs.csv" = .ok text ∧
      (Csv.read text.toList).map (fun fields => fields.map String.ofList) =
        [["timestamp", "script", "engine", "dtype", "size", "elapsed_secs", "seed", "summary",
            "hostname", "cpu_threads", "git_commit"],
          ["2023-11-14T22:13:20+00:00", "a \"quoted\", name", "parallel", "float32", "2*3", "0.25",
            "17", "two\r\nlines\n", "", "8", "01234567+dirty"],
          ["2023-11-14T22:13:20+00:00", "a \"quoted\", name", "parallel", "float32", "2*3", "0.25",
            "17", "two\r\nlines\n", "", "8", "01234567+dirty"]] := by
  have hgrows := read_appendAll "runs.csv" (List.cons_ne_nil quotedRecord [quotedRecord]) {}
  have hopen : FileTree.openToWrite {} "runs.csv" = .ok (["work", "runs.csv"], .empty) := rfl
  obtain ⟨final, hfinal⟩ := hgrows.succeeds _ hopen fun _ => rfl
  obtain ⟨text, htext, htable, -, -⟩ := hgrows.begun _ final hopen hfinal
  refine ⟨final, text, hfinal, htext, ?_⟩
  rw [htable]
  decide +kernel

end DenseBench.Run.Record
