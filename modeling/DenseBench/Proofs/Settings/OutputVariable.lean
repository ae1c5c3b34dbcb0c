import DenseBench.Proofs.Run.Precedence
import DenseBench.Proofs.Settings.Guess
import DenseBench.Proofs.Settings.Variable

/-!
# Names of files from the environment

The text of a variable is taken for a truth value, an integer or a double where it reads as one, and
for a name it is written out again. A name that is not written as these are written comes out as
another name, while the options give every name as it is.
-/

namespace DenseBench.Settings

open Run Text

/-! ## Texts that are taken for something and written out again -/

/-- The text that a variable gives. -/
def retold (s : String) : String :=
  (variableValue s).toText.toOption.getD s

/-- The text is that of a truth value, of an integer or of a double, or it reads as none of them. -/
inductive IsKept : String → Prop
  | truth (b : Bool) : IsKept (if b then "true" else "false")
  | integer {n : Int} (hlow : -2 ^ 63 ≤ n) (hhigh : n < 2 ^ 63) : IsKept (integerText n)
  | double {s : String} {x : Float} (hint : readInt64? s.toList = none)
    (hread : Decimal.readFloat? s.toList = some x) (h : Decimal.Layout.plain.render x = s) :
    IsKept s
  | other {s : String} (htruth : ¬ IsTruth s) (hint : readInt64? s.toList = none)
    (hread : Decimal.readFloat? s.toList = none) : IsKept s

theorem retold_of_toText {s text : String} {t : Tree} (h : variableValue s = t)
    (htext : t.toText = .ok text) : retold s = text := by
  rw [retold, h, htext]
  rfl

/-- What the text of a variable is taken for can be written out. -/
theorem toText_variableValue (s : String) : (variableValue s).toText = .ok (retold s) := by
  have htold : ∀ {t : Tree} {text : String}, variableValue s = t → t.toText = .ok text →
      (variableValue s).toText = .ok (retold s) := by
    intro t text h htext
    rw [retold_of_toText h htext, h, htext]
  by_cases htruth : IsTruth s
  · obtain ⟨b, h⟩ := variableValue_of_isTruth htruth
    exact htold h rfl
  · have h := variableValue_of_not_isTruth htruth
    split at h
    · exact htold h rfl
    · split at h
      · exact htold h rfl
      · exact htold h rfl

theorem retold_of_isKept {s : String} (h : IsKept s) : retold s = s := by
  cases h with
  | truth b =>
    cases b with
    | true => exact retold_of_toText rfl rfl
    | false => exact retold_of_toText rfl rfl
  | integer hlow hhigh =>
    exact retold_of_toText (variableValue_of_readInt64? (readInt64?_integerText hlow hhigh)) rfl
  | double hint hread h =>
    exact (retold_of_toText (variableValue_of_readFloat? hint hread) rfl).trans h
  | other htruth hint hread =>
    have hvalue := variableValue_of_not_isTruth htruth
    rw [hint, hread] at hvalue
    exact retold_of_toText hvalue rfl

theorem isKept_of_retold {s : String} (h : retold s = s) : IsKept s := by
  rw [← h]
  by_cases htruth : IsTruth s
  · obtain ⟨b, hvalue⟩ := variableValue_of_isTruth htruth
    rw [retold_of_toText hvalue rfl]
    exact .truth b
  · cases hint : readInt64? s.toList with
    | some n =>
      obtain ⟨hlow, hhigh⟩ := readInt64?_bounds hint
      rw [retold_of_toText (variableValue_of_readInt64? hint) rfl]
      exact .integer hlow hhigh
    | none =>
      cases hread : Decimal.readFloat? s.toList with
      | some x =>
        have htold := retold_of_toText (variableValue_of_readFloat? hint hread) rfl
        rw [h]
        exact .double hint hread (htold.symm.trans h)
      | none =>
        rw [h]
        exact .other htruth hint hread

theorem retold_eq_self_iff (s : String) : retold s = s ↔ IsKept s :=
  ⟨isKept_of_retold, retold_of_isKept⟩

/-! ## Files for results -/

/-- The files that results go to. -/
inductive ResultFile
  | json
  | csv
  deriving DecidableEq, Repr

namespace ResultFile

def leaf : ResultFile → Leaf
  | json => .json
  | csv => .csv

def inOutput? : ResultFile → Output → Option String
  | json, output => output.json
  | csv, output => output.csv

def inConfig? : ResultFile → Config → Option String
  | json, config => config.json
  | csv, config => config.csv

theorem isOutput_leaf (file : ResultFile) : file.leaf.isOutput = true := by
  cases file <;> rfl

end ResultFile

theorem toOutput_table_eq_ok_iff {entries : List (String × Tree)} {output : Output} :
    (Tree.table entries).toOutput = .ok output ↔ ∀ file : ResultFile,
      Tree.toOptional Tree.toText (entries.lookup file.leaf.key) = .ok (file.inOutput? output) := by
  constructor
  · intro h
    obtain ⟨json, hjson, h⟩ := exists_of_bind_eq_ok h
    obtain ⟨csv, hcsv, h⟩ := exists_of_bind_eq_ok h
    cases h
    rintro (_ | _)
    · exact hjson
    · exact hcsv
  · intro h
    have hjson : Tree.toOptional Tree.toText (entries.lookup "json") = .ok output.json := h .json
    have hcsv : Tree.toOptional Tree.toText (entries.lookup "csv") = .ok output.csv := h .csv
    simp only [Tree.toOutput, hjson, hcsv, bind, Except.bind, pure, Except.pure]

/-- Where outputs are read from a tree, an entry in a table of them is what is read, and there is no
entry in anything else. -/
theorem Reads.exists_outputEntry {t : Tree} {settings : Settings} (h : Reads t settings)
    (file : ResultFile) :
    ∃ name, Tree.toOptional Tree.toText (t.outputEntry? file.leaf.key) = .ok name ∧
      (name = file.inOutput? settings.output ∨ name = none) := by
  have houtput := h.output
  unfold Tree.outputEntry? outputKey
  cases hlookup : t.entries.lookup "output" with
  | none => exact ⟨none, rfl, .inr rfl⟩
  | some output =>
    rw [hlookup] at houtput
    cases output with
    | table entries => exact ⟨_, toOutput_table_eq_ok_iff.mp houtput file, .inl rfl⟩
    | list items => exact ⟨none, rfl, .inr rfl⟩
    | _ => cases houtput

namespace DiffersAt

variable {file : ResultFile} {value t t' : Tree} {text : String} {settings : Settings}

theorem outputTable (h : DiffersAt file.leaf value t t') :
    ∃ entries, t'.entries.lookup "output" = some (.table entries) ∧
      entries.lookup file.leaf.key = some value ∧
      ∀ other : ResultFile, other ≠ file →
        entries.lookup other.leaf.key = t.outputEntry? other.leaf.key := by
  obtain ⟨entries, hentries, hsame⟩ := h.output file.isOutput_leaf
  have hleaf := h.leaf?_eq
  rw [Tree.leaf?_of_output file.isOutput_leaf, hentries] at hleaf
  refine ⟨entries, hentries, hleaf, fun other hother => hsame _ ?_⟩
  cases other <;> cases file <;> first | exact absurd rfl hother | decide

theorem output_of_reads (h : DiffersAt file.leaf value t t') (hne : value ≠ .null)
    (hvalue : value.toText = .ok text) (hreads : Reads t' settings) :
    file.inOutput? settings.output = some text := by
  obtain ⟨entries, hentries, hleaf, -⟩ := h.outputTable
  have houtput := hreads.output
  rw [hentries] at houtput
  have hfile := toOutput_table_eq_ok_iff.mp houtput file
  rw [hleaf, toOptional_some hne hvalue] at hfile
  exact (Except.ok.inj hfile).symm

theorem reads_output (h : DiffersAt file.leaf value t t') (hne : value ≠ .null)
    (hvalue : value.toText = .ok text) (hreads : Reads t settings) :
    ∃ output, Reads t' { settings with output := output } ∧ ∀ other : ResultFile, other ≠ file →
      other.inOutput? output = other.inOutput? settings.output ∨ other.inOutput? output = none := by
  obtain ⟨entries, hentries, hleaf, hother⟩ := h.outputTable
  have hfiles : ∀ other : ResultFile, ∃ name,
      Tree.toOptional Tree.toText (entries.lookup other.leaf.key) = .ok name ∧
        (other ≠ file → name = other.inOutput? settings.output ∨ name = none) := by
    intro other
    by_cases heq : other = file
    · subst heq
      exact ⟨some text, by rw [hleaf, toOptional_some hne hvalue], fun hne => absurd rfl hne⟩
    · obtain ⟨name, hname, hsame⟩ := hreads.exists_outputEntry other
      exact ⟨name, by rw [hother other heq, hname], fun _ => hsame⟩
  obtain ⟨json, hjson, hsameJson⟩ := hfiles .json
  obtain ⟨csv, hcsv, hsameCsv⟩ := hfiles .csv
  have hroot : ∀ key, key ≠ "output" → t'.entries.lookup key = t.entries.lookup key := by
    intro key hkey
    exact h.root key (by rwa [Leaf.rootKey_of_output file.isOutput_leaf])
  refine ⟨⟨json, csv⟩, ⟨?_, ?_, ?_, ?_, ?_, ?_⟩, ?_⟩
  · exact (hroot "engine" (by decide)).symm ▸ hreads.engine
  · exact (hroot "dtype" (by decide)).symm ▸ hreads.dtype
  · exact (hroot "threads" (by decide)).symm ▸ hreads.threads
  · exact (hroot "seed" (by decide)).symm ▸ hreads.seed
  · exact (hroot "log_level" (by decide)).symm ▸ hreads.logLevel
  · rw [hentries]
    refine toOutput_table_eq_ok_iff.mpr ?_
    rintro (_ | _)
    · exact hjson
    · exact hcsv
  · rintro (_ | _)
    · exact hsameJson
    · exact hsameCsv

end DiffersAt

namespace ResultFile

def option (file : ResultFile) (name : String) : String :=
  optionText file.leaf.key name

theorem ofOptions_option (file : ResultFile) (script name : String) (settings : Settings)
    {defaultSizes : List UInt64} (hsizes : AreSizes defaultSizes) :
    ∃ config, Config.ofOptions script [file.option name] settings defaultSizes = .ok config ∧
      file.inConfig? config = some name := by
  cases file with
  | json =>
    have hchoices : List.Forall₂ Chooses [optionText "json" name] [.json name] :=
      .cons (.value .json List.mem_cons_self rfl) .nil
    exact ⟨_, Config.ofOptions_eq_ok hsizes (Config.mapM_parse_iff.mpr hchoices), rfl⟩
  | csv =>
    have hchoices : List.Forall₂ Chooses [optionText "csv" name] [.csv name] :=
      .cons (.value .csv List.mem_cons_self rfl) .nil
    exact ⟨_, Config.ofOptions_eq_ok hsizes (Config.mapM_parse_iff.mpr hchoices), rfl⟩

theorem ofOptions_nil (file : ResultFile) (script : String) (settings : Settings)
    {defaultSizes : List UInt64} (hsizes : AreSizes defaultSizes) :
    ∃ config, Config.ofOptions script [] settings defaultSizes = .ok config ∧
      file.inConfig? config = file.inOutput? settings.output := by
  refine ⟨_, Config.ofOptions_eq_ok hsizes rfl, ?_⟩
  cases file <;> rfl

end ResultFile

/-- A variable gives the file the retold name, which is the name itself only if the name is kept. The
other file stays, unless outputs were given in another form than a table, which is dropped. The
option names the file as it is. -/
theorem load_outputVariable (file : ResultFile) (readers : Readers) (files : FileTree)
    (path : Option String) (before : List (String × String)) {after : List (String × String)}
    (hafter : ∀ v ∈ after, VariableSpares file.leaf v.1) (name : String) :
    (∀ settings : Settings,
      load readers files path (before ++ (file.leaf.variableName, name) :: after) = .ok settings →
      file.inOutput? settings.output = some (retold name) ∧
      ∀ (script : String) (defaultSizes : List UInt64), AreSizes defaultSizes →
        ∃ config config', Config.ofOptions script [] settings defaultSizes = .ok config ∧
          Config.ofOptions script [file.option name] {} defaultSizes = .ok config' ∧
          file.inConfig? config = some (retold name) ∧ file.inConfig? config' = some name) ∧
    (∀ settings : Settings, load readers files path (before ++ after) = .ok settings →
      ∃ output, load readers files path (before ++ (file.leaf.variableName, name) :: after) =
          .ok { settings with output := output } ∧
        ∀ other : ResultFile, other ≠ file →
          other.inOutput? output = other.inOutput? settings.output ∨
            other.inOutput? output = none) ∧
    (retold name = name ↔ IsKept name) := by
  have htext := toText_variableValue name
  have hne := (variableValue_isPlain name).2
  have hdiffers := fun layer => differsAt_merged hafter layer before name
  refine ⟨?_, ?_, retold_eq_self_iff name⟩
  · intro settings h
    obtain ⟨layer, -, hreads⟩ := load_eq_ok_iff.mp h
    have houtput := (hdiffers layer).output_of_reads hne htext hreads
    refine ⟨houtput, ?_⟩
    intro script defaultSizes hsizes
    obtain ⟨config, hconfig, hloaded⟩ := file.ofOptions_nil script settings hsizes
    obtain ⟨config', hconfig', hgiven⟩ := file.ofOptions_option script name {} hsizes
    exact ⟨config, config', hconfig, hconfig', hloaded.trans houtput, hgiven⟩
  · intro settings h
    obtain ⟨layer, hlayer, hreads⟩ := load_eq_ok_iff.mp h
    obtain ⟨output, houtput, hother⟩ := (hdiffers layer).reads_output hne htext hreads
    exact ⟨output, load_eq_ok_iff.mpr ⟨layer, hlayer, houtput⟩, hother⟩

theorem load_outputVariable_leadingZeros :
    (∀ v ∈ [("ARRAYBENCH_OUTPUT__CSV", "runs.csv")], VariableSpares .json v.1) ∧
      retold "007" = "7" ∧ ¬ IsKept "007" ∧
      ∃ settings, load {} {} none [("ARRAYBENCH_OUTPUT__JSON", "007"),
        ("ARRAYBENCH_OUTPUT__CSV", "runs.csv")] = .ok settings ∧
        settings.output.json = some "7" := by
  have hspares : ∀ v ∈ [("ARRAYBENCH_OUTPUT__CSV", "runs.csv")], VariableSpares .json v.1 := by
    intro v hv key hkey
    obtain rfl := List.mem_singleton.mp hv
    obtain rfl : "output.csv" = key := Option.some.inj hkey
    exact .entry rfl (by decide) (by decide)
  obtain ⟨houtput, hload, hkept⟩ :=
    load_outputVariable .json {} {} none [] hspares "007"
  have hretold : retold "007" = "7" := by decide +kernel
  have hwithout : load {} {} none [("ARRAYBENCH_OUTPUT__CSV", "runs.csv")] =
      .ok { output := { csv := some "runs.csv" } } := by decide +kernel
  obtain ⟨output, hwith, -⟩ := hload _ hwithout
  refine ⟨hspares, hretold, ?_, _, hwith, ?_⟩
  · rw [← hkept, hretold]
    decide
  · rw [← hretold]
    exact (houtput _ hwith).1

/-- The option names a file that the variable does not. -/
theorem outputVariable_ne_option :
    load {} {} none [("ARRAYBENCH_OUTPUT__JSON", "007")] = .ok { output := { json := some "7" } } ∧
      Choice.parse "--json=007" = .ok (.json "007") := by
  decide +kernel

end DenseBench.Settings
