import DenseBench.Proofs.Calendar.Timestamp
import DenseBench.Proofs.FileTree
import DenseBench.Proofs.Json.Printed
import DenseBench.Proofs.Run.Options
import DenseBench.Run.Record

/-!
# Records written and read back

A record's document loses nothing: reading the file it was written to gives the record again.
-/

namespace DenseBench.Run

open Text Json Calendar

theorem foundItems_eq_map (vs : List Value) : foundItems vs = vs.map Value.found := by
  induction vs with
  | nil => rfl
  | cons v vs ih => rw [foundItems, ih, List.map_cons]

theorem readableItems_words (ns : List UInt64) :
    ReadableItems (ns.map fun n => .word n.toNat) := by
  induction ns with
  | nil => trivial
  | cons n ns ih => exact ⟨n.toNat_lt, ih⟩

theorem toWord_found (n : UInt64) : (Value.word n.toNat).found.toWord = .ok n := by
  rw [Value.found, Found.toWord, UInt64.ofNat_toNat]

theorem toList_words (ns : List UInt64) :
    Found.toList Found.toWord (.list (foundItems (ns.map fun n => .word n.toNat)) none) =
      .ok ns := by
  have hread : (ns.map (Value.found ∘ fun n => .word n.toNat)).mapM Found.toWord = .ok ns :=
    mapM_map_eq_ok fun n _ => toWord_found n
  simp only [Found.toList, foundItems_eq_map, List.map_map, hread]

theorem toChoice_engine (k : EngineKind) :
    Found.toChoice EngineKind.byName (.text (.ok k.name)) = .ok k := by
  cases k <;> rfl

theorem toChoice_elementType (t : ElementType) :
    Found.toChoice ElementType.byName (.text (.ok t.name)) = .ok t := by
  cases t <;> rfl

theorem timestampOf_documentText {t : Timestamp} (h : t.IsHeld) :
    Record.timestampOf (.text (.ok t.documentText)) = .ok t := by
  simp only [Record.timestampOf, Found.toText, Timestamp.ofText?_documentText h]

namespace Host

theorem readable_toJson (host : Host) : host.toJson.Readable :=
  ⟨trivial, trivial, trivial, host.cpuCores.toNat_lt, host.cpuThreads.toNat_lt,
    host.totalMemoryMb.toNat_lt, trivial, trivial, trivial⟩

theorem ofJson_toJson (host : Host) : ofJson host.toJson.found = .ok host := by
  have hmembers : Found.enterAll fieldNames Draft.enter {} host.toJson.found = .ok
      { hostname := host.hostname, os := host.os, cpuModel := host.cpuModel,
        cpuCores := host.cpuCores, cpuThreads := host.cpuThreads,
        totalMemoryMb := host.totalMemoryMb, gitCommit := host.gitCommit,
        gitDirty := host.gitDirty } := by
    simp [toJson, Value.found, foundMembers, Found.enterAll, Found.enterMembers, fieldNames,
      Draft.enter, Found.fill, Found.toText, Found.toBool, Found.toWord, Except.map]
  rw [ofJson, hmembers]
  rfl

end Host

namespace Record

/-- A record whose document can be read: the digits of its time read back, and its timestamp is one
that can be held. -/
structure IsWritable (r : Record) : Prop where
  elapsed : ReadsBack r.elapsedSecs
  timestamp : r.timestamp.IsHeld

theorem readable_toJson {r : Record} (h : ReadsBack r.elapsedSecs) : r.toJson.Readable :=
  ⟨trivial, trivial, trivial, readableItems_words r.sizes, h, r.seed.toNat_lt, trivial, trivial,
    r.host.readable_toJson, trivial⟩

theorem ofJson_toJson {r : Record} (h : r.timestamp.IsHeld) : ofJson r.toJson.found = .ok r := by
  have hmembers : Found.enterAll fieldNames Draft.enter {} r.toJson.found = .ok
      { script := r.script, engine := r.engine, dtype := r.dtype, sizes := r.sizes,
        elapsedSecs := r.elapsedSecs, seed := r.seed, summary := r.summary,
        timestamp := r.timestamp, host := r.host } := by
    simp [toJson, Value.found, foundMembers, Found.enterAll, Found.enterMembers, fieldNames,
      Draft.enter, Found.fill, Found.toText, Found.toWord, Found.toFloat, Except.map,
      toChoice_engine, toChoice_elementType, toList_words, timestampOf_documentText h,
      r.host.ofJson_toJson]
  rw [ofJson, hmembers]
  rfl

theorem decodeText_toJson {r : Record} (h : r.IsWritable) :
    decodeText ofJson r.toJson.toText = .ok r := by
  rw [decodeText, read_print (readable_toJson h.elapsed)]
  dsimp only
  rw [ofJson_toJson h.timestamp]
  rfl

theorem save_eq (r : Record) (path : String) (tree : FileTree) :
    r.save (m := StateM FileTree) path tree =
      ((tree.write path r.toJson.toText.toUTF8).1.mapError fun stop => .file stop.fault,
        (tree.write path r.toJson.toText.toUTF8).2) :=
  rfl

theorem exists_of_save_ok {r : Record} {path : String} {tree saved : FileTree}
    (h : r.save (m := StateM FileTree) path tree = (.ok (), saved)) :
    ∃ place held, tree.Opens path place held ∧
      saved = tree.put place (.file r.toJson.toText.toUTF8) := by
  rw [save_eq] at h
  obtain ⟨hresult, hsaved⟩ := Prod.mk.inj h
  exact FileTree.exists_of_write_ok (Prod.ext (mapError_eq_ok_iff.mp hresult) hsaved)

theorem load_of_read {r : Record} (h : r.IsWritable) {path : String} {tree : FileTree}
    (hread : tree.read path = .ok r.toJson.toText.toUTF8) : load path tree = .ok r := by
  rw [load, FileTree.readText_eq_ok hread]
  dsimp only
  rw [decodeText_toJson h]
  rfl

/-- Whenever a record is written without fail, it is read back unchanged, whatever the file held;
and it is written without fail wherever a file can be opened and nothing breaks the write off. -/
theorem load_save {r : Record} (h : r.IsWritable) (path : String) (tree : FileTree) :
    (∀ saved, r.save (m := StateM FileTree) path tree = (.ok (), saved) → load path saved = .ok r) ∧
      ∀ opened, tree.openToWrite path = .ok opened →
        tree.mishap? opened.1 r.toJson.toText.toUTF8 = none →
        ∃ saved, r.save (m := StateM FileTree) path tree = (.ok (), saved) ∧
          load path saved = .ok r := by
  have hload : ∀ saved, r.save (m := StateM FileTree) path tree = (.ok (), saved) →
      load path saved = .ok r := by
    intro saved hsave
    obtain ⟨place, held, hopens, rfl⟩ := exists_of_save_ok hsave
    exact load_of_read h (hopens.read_put_self _)
  refine ⟨hload, ?_⟩
  rintro ⟨place, held⟩ hopen hsteady
  have hwrite := (FileTree.openToWrite_eq_ok_iff.mp hopen).write_eq_ok hsteady
  have hsave : r.save (m := StateM FileTree) path tree =
      (.ok (), tree.put place (.file r.toJson.toText.toUTF8)) := by
    rw [save_eq, hwrite]
    rfl
  exact ⟨_, hsave, hload _ hsave⟩

/-- A record with all that has to be escaped, no sizes, the greatest seed and a year of five
digits. -/
def oddRecord : Record where
  script := "a \"quoted\" \\ path,\x01\r\n\té"
  engine := .parallel
  dtype := .float32
  sizes := []
  elapsedSecs := 0.25
  seed := 18446744073709551615
  summary := ""
  timestamp := ⟨253402300800, 120000⟩
  host := ⟨"host", "os", "cpu", 1, 8, 18446744073709551615, "", true⟩

/-- A folder with a file that is written over. -/
def oneFile : FileTree where
  nodes := [(["work", "out"], .folder), (["work", "out", "run.json"], .file ⟨#[7]⟩)]

theorem load_save_oddRecord :
    ∃ saved, oddRecord.save (m := StateM FileTree) "out/run.json" oneFile = (.ok (), saved) ∧
      load "out/run.json" saved = .ok oddRecord := by
  have helapsed : ReadsBack oddRecord.elapsedSecs := by with_unfolding_all rfl
  have htimestamp : oddRecord.timestamp.IsHeld := ⟨by decide +kernel, by decide +kernel⟩
  have hopen : oneFile.openToWrite "out/run.json" =
      .ok (["work", "out", "run.json"], ⟨#[7]⟩) := by decide +kernel
  exact (load_save ⟨helapsed, htimestamp⟩ "out/run.json" oneFile).2 _ hopen rfl

end Record

end DenseBench.Run
