import DenseBench.Proofs.FileTree
import DenseBench.Settings.Load

/-!
# The file that settings come from

An explicit path names the file, and the default file is not looked at; without one the default file
counts, if it is there, and otherwise no file does. What a file says is its text, read in the format
of its name. A path that leads to no file stands for the first file that is there with the end of a
format behind its last name.
-/

namespace DenseBench.Settings

theorem formatOf?_eq_some_iff {name : String} {format : FileFormat} :
    formatOf? name = some format ↔ ∃ e, extension? name = some e ∧ e ∈ format.extensions := by
  rw [formatOf?, Option.bind_eq_some_iff]
  constructor
  · rintro ⟨e, he, hformat⟩
    exact ⟨e, he, by simpa using List.find?_some hformat⟩
  · rintro ⟨e, he, hformat⟩
    refine ⟨e, he, ?_⟩
    cases format with
    | yaml =>
      rcases List.mem_cons.mp hformat with rfl | hformat
      · decide
      · obtain rfl := List.mem_singleton.mp hformat
        decide
    | _ =>
      obtain rfl := List.mem_singleton.mp hformat
      decide

variable {readers : Readers} {tree : FileTree}

/-- What a path says: the text of the file there, or else of the first candidate that is a file. -/
inductive PathSays (readers : Readers) (tree : FileTree) (path : String)
    (layer : List (String × Tree)) : Prop
  | itself {name e s : String} {format : FileFormat} (hfile : tree.isFile path = true)
    (hname : (FileTree.Path.ofText path).names.getLast? = some name)
    (hextension : extension? name = some e) (hformat : e ∈ format.extensions)
    (htext : tree.readText path = .ok s) (hread : readers.readText? format s = some layer)
  | extended {before after : List (String × FileFormat)} {found s : String} {format : FileFormat}
    (hfile : tree.isFile path = false)
    (hcandidates : candidates readers path = before ++ (found, format) :: after)
    (hbefore : ∀ c ∈ before, tree.isFile c.1 = false) (hfound : tree.isFile found = true)
    (htext : tree.readText found = .ok s) (hread : readers.readText? format s = some layer)

theorem fileLayer_of_findFile {path found : String} {format : FileFormat}
    {layer : List (String × Tree)} (h : findFile readers tree path = .ok (found, format)) :
    fileLayer readers tree path = .ok layer ↔
      ∃ s, tree.readText found = .ok s ∧ readers.readText? format s = some layer := by
  rw [fileLayer, h]
  dsimp only
  unfold FileTree.readText
  cases tree.read found with
  | error fault => simp
  | ok content =>
    cases htext : String.fromUTF8? content with
    | none => simp [htext]
    | some s => cases hread : readers.readText? format s <;> simp [htext, hread]

theorem fileLayer_eq_ok_iff {path : String} {layer : List (String × Tree)} :
    fileLayer readers tree path = .ok layer ↔ PathSays readers tree path layer := by
  constructor
  · intro h
    cases hfile : tree.isFile path with
    | true =>
      cases hformat : ((FileTree.Path.ofText path).names.getLast?).bind formatOf? with
      | none =>
        rw [fileLayer, findFile, if_pos hfile, hformat] at h
        cases h
      | some format =>
        have hfound : findFile readers tree path = .ok (path, format) := by
          rw [findFile, if_pos hfile, hformat]
        obtain ⟨name, hname, hends⟩ := Option.bind_eq_some_iff.mp hformat
        obtain ⟨e, hextension, hmem⟩ := formatOf?_eq_some_iff.mp hends
        obtain ⟨s, htext, hread⟩ := (fileLayer_of_findFile hfound).mp h
        exact .itself hfile hname hextension hmem htext hread
    | false =>
      have hnot : ¬ tree.isFile path = true := Bool.eq_false_iff.mp hfile
      cases hfind : (candidates readers path).find? fun c => tree.isFile c.1 with
      | none =>
        rw [fileLayer, findFile, if_neg hnot, hfind] at h
        cases h
      | some found =>
        obtain ⟨other, format⟩ := found
        have hfound : findFile readers tree path = .ok (other, format) := by
          rw [findFile, if_neg hnot, hfind]
        obtain ⟨hother, before, after, hcandidates, hbefore⟩ :=
          List.find?_eq_some_iff_append.mp hfind
        obtain ⟨s, htext, hread⟩ := (fileLayer_of_findFile hfound).mp h
        exact .extended hfile hcandidates (fun c hc => by simpa using hbefore c hc) hother htext
          hread
  · intro h
    cases h with
    | itself hfile hname hextension hformat htext hread =>
      refine (fileLayer_of_findFile ?_).mpr ⟨_, htext, hread⟩
      rw [findFile, if_pos hfile, hname, Option.bind_some,
        formatOf?_eq_some_iff.mpr ⟨_, hextension, hformat⟩]
    | @extended before after found s format hfile hcandidates hbefore hfound htext hread =>
      have hfind : (candidates readers path).find? (fun c => tree.isFile c.1) =
          some (found, format) :=
        List.find?_eq_some_iff_append.mpr
          ⟨hfound, before, after, hcandidates, fun c hc => by simpa using hbefore c hc⟩
      refine (fileLayer_of_findFile ?_).mpr ⟨s, htext, hread⟩
      rw [findFile, if_neg (Bool.eq_false_iff.mp hfile), hfind]

example :
    (findFile {} { nodes := [(["work", "bench.yml"], .file .empty)] } "bench").toOption =
      some ("bench.yml", .yaml) := by
  decide +kernel

/-- The layer that the settings take from a file. -/
inductive Chosen (readers : Readers) (tree : FileTree) :
    Option String → List (String × Tree) → Prop
  | explicit {path : String} {layer : List (String × Tree)}
    (h : PathSays readers tree path layer) : Chosen readers tree (some path) layer
  | default {layer : List (String × Tree)} (hthere : tree.has "arraybench.toml" = true)
    (h : PathSays readers tree "arraybench.toml" layer) : Chosen readers tree none layer
  | absent (h : tree.has "arraybench.toml" = false) : Chosen readers tree none []

theorem chosenFileLayer_eq_ok_iff {path : Option String} {layer : List (String × Tree)} :
    chosenFileLayer readers tree path = .ok layer ↔ Chosen readers tree path layer := by
  cases path with
  | some path =>
    constructor
    · intro h
      exact .explicit (fileLayer_eq_ok_iff.mp h)
    · rintro ⟨h⟩
      exact fileLayer_eq_ok_iff.mpr h
  | none =>
    rw [chosenFileLayer, defaultFile]
    constructor
    · intro h
      split at h
      · rename_i hthere
        exact .default hthere (fileLayer_eq_ok_iff.mp h)
      · rename_i habsent
        cases h
        exact .absent (Bool.eq_false_iff.mpr habsent)
    · intro h
      cases h with
      | default hthere h =>
        rw [if_pos hthere]
        exact fileLayer_eq_ok_iff.mpr h
      | absent habsent =>
        rw [habsent]
        rfl

end DenseBench.Settings
