import DenseBench.Proofs.Text.Numeral
import DenseBench.Proofs.Traversal
import DenseBench.Run.Config
import DenseBench.Run.Record

/-!
# Options that repeat a run

Sizes, names and numbers are read back from the texts that a record writes for them. The options
made of these texts give the configuration of the record, whatever the settings say.
-/

namespace DenseBench

open Text

theorem ElementType.parse_name (t : ElementType) : ElementType.parse t.name = .ok t := by
  cases t <;> rfl

theorem EngineKind.parse_name (kind : EngineKind) : EngineKind.parse kind.name = .ok kind := by
  cases kind <;> rfl

namespace Run

theorem parseSize_numeral {spec : String} {n : UInt64} (hn : n ≠ 0) :
    parseSize spec (numeral n.toNat) = .ok n := by
  have hdigit : ∀ c ∈ numeral n.toNat, c.isDigit = true := fun c hc => isDigit_of_mem_numeral hc
  have htrim : trim (numeral n.toNat) = numeral n.toNat :=
    trim_eq_self fun c hc => isBlank_of_isDigit (hdigit c hc)
  have hfilter : (numeral n.toNat).filter (· ≠ '_') = numeral n.toNat := by
    rw [List.filter_eq_self]
    intro c hc
    rw [decide_eq_true_eq]
    rintro rfl
    exact absurd (hdigit '_' hc) (by decide)
  have hread : readUnsigned? wordLimit (numeral n.toNat) = some n.toNat :=
    readUnsigned?_numeral n.toNat_lt
  have hpos : n.toNat ≠ 0 := fun hzero => hn (UInt64.toNat_inj.mp (by simpa using hzero))
  unfold parseSize
  simp only [htrim, hfilter, hread]
  rw [UInt64.ofNat_toNat]

theorem parseSizes_sizeLabel {sizes : List UInt64} (hne : sizes ≠ [])
    (hpos : ∀ n ∈ sizes, n ≠ 0) : parseSizes (sizeLabel sizes) = .ok sizes := by
  have hlabel : (sizeLabel sizes).toList =
      ['*'].intercalate (sizes.map fun n => numeral n.toNat) := by
    rw [sizeLabel, String.toList_intercalate, List.map_map]
    congr 1
    exact List.map_congr_left fun n _ => String.toList_ofList
  have hsplit : (sizeLabel sizes).toList.splitOn '*' = sizes.map fun n => numeral n.toNat := by
    rw [hlabel]
    apply List.splitOn_intercalate
    · intro part hpart hstar
      obtain ⟨n, -, rfl⟩ := List.mem_map.mp hpart
      exact absurd (isDigit_of_mem_numeral hstar) (by decide)
    · simpa using hne
  rw [parseSizes, hsplit]
  exact mapM_map_eq_ok fun n hn => parseSize_numeral (hpos n hn)

namespace Choice

/-- A key without an equals sign is cut from its value at the sign between them. -/
theorem keyValue?_option {key value : String} (hkey : '=' ∉ key.toList) :
    keyValue? ("--" ++ key ++ "=" ++ value) = some (key, value) := by
  have hlist : ("--" ++ key ++ "=" ++ value).toList =
      '-' :: '-' :: (key.toList ++ '=' :: value.toList) := by
    simp
  have hne : ∀ c ∈ key.toList, decide (c ≠ '=') = true := by
    intro c hc
    rw [decide_eq_true_eq]
    rintro rfl
    exact hkey hc
  have hdrop : (key.toList ++ '=' :: value.toList).dropWhile (· ≠ '=') = '=' :: value.toList := by
    rw [List.dropWhile_append_of_pos hne]
    rfl
  have htake : (key.toList ++ '=' :: value.toList).takeWhile (· ≠ '=') = key.toList := by
    rw [List.takeWhile_append_of_pos hne]
    simp
  rw [keyValue?, hlist]
  simp only [hdrop, htake, String.ofList_toList]

theorem parse_option {key value : String} {choice : Choice} (hkey : '=' ∉ key.toList)
    (hchoice : ofKeyValue key value = .ok choice) :
    parse ("--" ++ key ++ "=" ++ value) = .ok choice := by
  rw [parse, keyValue?_option hkey]
  exact hchoice

theorem parseNumber_numeralText (key : String) (n : UInt64) :
    parseNumber key (numeralText n.toNat) = .ok n := by
  have hread : readUnsigned? wordLimit (numeralText n.toNat).toList = some n.toNat := by
    rw [numeralText, String.toList_ofList]
    exact readUnsigned?_numeral n.toNat_lt
  rw [parseNumber, hread]
  simp

end Choice

/-- The options that repeat the run of a record. -/
def Record.options (r : Record) : List String :=
  ["--size=" ++ r.sizeLabel, "--dtype=" ++ r.dtype.name, "--engine=" ++ r.engine.name,
    "--seed=" ++ numeralText r.seed.toNat]

theorem Record.parse_options {r : Record} (hne : r.sizes ≠ []) (hpos : ∀ n ∈ r.sizes, n ≠ 0) :
    r.options.mapM Choice.parse =
      .ok [.sizes r.sizes, .dtype r.dtype, .engine r.engine, .seed r.seed] := by
  have hsizes : Choice.parse ("--" ++ "size" ++ "=" ++ r.sizeLabel) = .ok (.sizes r.sizes) := by
    apply Choice.parse_option (by decide)
    simp [Choice.ofKeyValue, Record.sizeLabel, parseSizes_sizeLabel hne hpos, Except.map]
  have hdtype : Choice.parse ("--" ++ "dtype" ++ "=" ++ r.dtype.name) = .ok (.dtype r.dtype) := by
    apply Choice.parse_option (by decide)
    simp [Choice.ofKeyValue, ElementType.parse_name, Except.map]
  have hengine : Choice.parse ("--" ++ "engine" ++ "=" ++ r.engine.name) =
      .ok (.engine r.engine) := by
    apply Choice.parse_option (by decide)
    simp [Choice.ofKeyValue, EngineKind.parse_name, Except.map]
  have hseed : Choice.parse ("--" ++ "seed" ++ "=" ++ numeralText r.seed.toNat) =
      .ok (.seed r.seed) := by
    apply Choice.parse_option (by decide)
    simp [Choice.ofKeyValue, Choice.parseNumber_numeralText, Except.map]
  have hoptions : r.options = ["--" ++ "size" ++ "=" ++ r.sizeLabel,
      "--" ++ "dtype" ++ "=" ++ r.dtype.name, "--" ++ "engine" ++ "=" ++ r.engine.name,
      "--" ++ "seed" ++ "=" ++ numeralText r.seed.toNat] := rfl
  rw [hoptions, List.mapM_cons, hsizes, List.mapM_cons, hdtype, List.mapM_cons, hengine,
    List.mapM_cons, hseed]
  rfl

theorem Config.checked_eq_ok_iff {config checked : Config} :
    config.checked = .ok checked ↔
      checked = config ∧ config.sizes ≠ [] ∧ ∀ n ∈ config.sizes, n ≠ 0 := by
  have hmem : config.sizes.contains 0 = false ↔ ∀ n ∈ config.sizes, n ≠ 0 := by
    rw [← Bool.not_eq_true, List.contains_iff_mem]
    exact ⟨fun h n hn hzero => h (hzero ▸ hn), fun h hzero => h 0 hzero rfl⟩
  rw [← hmem]
  unfold Config.checked
  by_cases hempty : config.sizes.isEmpty = true
  · rw [if_pos hempty]
    simp [List.isEmpty_iff.mp hempty]
  · rw [if_neg hempty]
    have hne : config.sizes ≠ [] := fun h => hempty (List.isEmpty_iff.mpr h)
    by_cases hzero : config.sizes.contains 0 = true
    · rw [if_pos hzero, hzero]
      simp
    · rw [if_neg hzero, Bool.eq_false_iff.mpr hzero, Except.ok.injEq]
      exact ⟨fun h => ⟨h.symm, hne, rfl⟩, fun h => h.1.symm⟩

/-- The configuration of a run that repeats the record's. Only the threads and the files for results
are left to the settings. -/
def Record.config (r : Record) (settings : Settings) : Config where
  script := r.script
  sizes := r.sizes
  dtype := r.dtype
  engine := r.engine
  seed := some r.seed
  threads := settings.threads
  json := settings.output.json
  csv := settings.output.csv

/-! ## Accepted options -/

/-- There are sizes, and all are positive. -/
def AreSizes (sizes : List UInt64) : Prop :=
  sizes ≠ [] ∧ ∀ n ∈ sizes, n ≠ 0

theorem ne_zero_of_parseSize {spec : String} {part : List Char} {n : UInt64}
    (h : parseSize spec part = .ok n) : n ≠ 0 := by
  unfold parseSize at h
  dsimp only at h
  split at h
  · cases h
  · cases h
  · rename_i k hne hread
    cases h
    obtain ⟨-, hlt⟩ := Option.filter_eq_some_iff.mp hread
    have hlt : k < 2 ^ 64 := of_decide_eq_true hlt
    intro hzero
    have hk := congrArg UInt64.toNat hzero
    rw [UInt64.toNat_ofNat_of_lt' hlt] at hk
    exact hne hk

theorem areSizes_of_parseSizes {spec : String} {sizes : List UInt64}
    (h : parseSizes spec = .ok sizes) : AreSizes sizes := by
  obtain ⟨hlength, hparts⟩ := of_mapM_eq_ok h
  constructor
  · rintro rfl
    exact List.splitOn_ne_nil _ _ (List.length_eq_zero_iff.mp hlength.symm)
  · intro n hn
    obtain ⟨part, -, hpart⟩ := hparts n hn
    exact ne_zero_of_parseSize hpart

theorem Choice.areSizes_of_parse {argument : String} {sizes : List UInt64}
    (h : Choice.parse argument = .ok (.sizes sizes)) : AreSizes sizes := by
  unfold Choice.parse at h
  split at h
  · rename_i key value _
    unfold Choice.ofKeyValue at h
    split at h
    · cases hsizes : parseSizes value with
      | error e =>
        rw [hsizes] at h
        cases h
      | ok found =>
        rw [hsizes] at h
        cases h
        exact areSizes_of_parseSizes hsizes
    · cases hdtype : ElementType.parse value <;> rw [hdtype] at h <;> cases h
    · cases hengine : EngineKind.parse value <;> rw [hengine] at h <;> cases h
    · cases hengine : EngineKind.parse value <;> rw [hengine] at h <;> cases h
    · cases hseed : parseNumber "seed" value <;> rw [hseed] at h <;> cases h
    · cases hthreads : parseNumber "threads" value <;> rw [hthreads] at h <;> cases h
    all_goals cases h
  · cases h

theorem Config.script_foldl_apply (choices : List Choice) (config : Config) :
    (choices.foldl Choice.apply config).script = config.script := by
  induction choices generalizing config with
  | nil => rfl
  | cons choice choices ih =>
    rw [List.foldl_cons, ih]
    cases choice <;> rfl

theorem Config.areSizes_foldl_apply {choices : List Choice}
    (hchoices : ∀ sizes, .sizes sizes ∈ choices → AreSizes sizes) {config : Config}
    (h : AreSizes config.sizes) : AreSizes (choices.foldl Choice.apply config).sizes := by
  induction choices generalizing config with
  | nil => exact h
  | cons choice choices ih =>
    refine ih (fun sizes hmem => hchoices sizes (List.mem_cons_of_mem _ hmem)) ?_
    cases choice with
    | sizes sizes => exact hchoices sizes List.mem_cons_self
    | _ => exact h

/-- Options that are well-formed configure a run, whatever the settings. -/
theorem Config.ofOptions_eq_ok {script : String} {options : List String} {settings : Settings}
    {defaultSizes : List UInt64} {choices : List Choice} (hdefault : AreSizes defaultSizes)
    (hchoices : options.mapM Choice.parse = .ok choices) :
    Config.ofOptions script options settings defaultSizes =
      .ok (choices.foldl Choice.apply (.ofSettings script settings defaultSizes)) := by
  have hsizes : ∀ sizes, .sizes sizes ∈ choices → AreSizes sizes := by
    intro sizes hmem
    obtain ⟨argument, -, hparse⟩ := (of_mapM_eq_ok hchoices).2 _ hmem
    exact Choice.areSizes_of_parse hparse
  rw [Config.ofOptions, hchoices]
  exact Config.checked_eq_ok_iff.mpr ⟨rfl, Config.areSizes_foldl_apply hsizes hdefault⟩

theorem Config.of_ofOptions {script : String} {options : List String} {settings : Settings}
    {defaultSizes : List UInt64} {config : Config}
    (h : ofOptions script options settings defaultSizes = .ok config) :
    config.script = script ∧ config.sizes ≠ [] ∧ ∀ n ∈ config.sizes, n ≠ 0 := by
  unfold ofOptions at h
  split at h
  · obtain ⟨rfl, hne, hpos⟩ := checked_eq_ok_iff.mp h
    exact ⟨script_foldl_apply _ _, hne, hpos⟩
  · cases h

theorem Record.ofOptions_options {r : Record} (hne : r.sizes ≠ []) (hpos : ∀ n ∈ r.sizes, n ≠ 0)
    (settings : Settings) (defaultSizes : List UInt64) :
    Config.ofOptions r.script r.options settings defaultSizes = .ok (r.config settings) := by
  rw [Config.ofOptions, Record.parse_options hne hpos]
  exact Config.checked_eq_ok_iff.mpr ⟨rfl, hne, hpos⟩

end Run

end DenseBench
