import DenseBench.Proofs.Run.Options
import Mathlib.Data.List.TakeWhile

/-!
# Which option counts

An option is a key and a text with an equals sign between them. Every option has to be accepted, and
the leftmost that is not decides the error; of the options for one value the last decides the value.
So only the order among options for the same value matters.
-/

namespace DenseBench.Run

/-! ## Options -/

def optionText (key text : String) : String :=
  "--" ++ key ++ "=" ++ text

/-- The values of a configuration that options decide. -/
inductive Field
  | sizes
  | dtype
  | engine
  | seed
  | threads
  | json
  | csv
  deriving DecidableEq, Repr

namespace Field

@[reducible]
def Value : Field → Type
  | sizes => List UInt64
  | dtype => ElementType
  | engine => EngineKind
  | seed | threads => UInt64
  | json | csv => String

def keys : Field → List String
  | sizes => ["size"]
  | dtype => ["dtype"]
  | engine => ["bohrium", "engine"]
  | seed => ["seed"]
  | threads => ["threads"]
  | json => ["json"]
  | csv => ["csv"]

/-- The value that a text stands for behind one of the keys, or why it stands for none. -/
def read : (field : Field) → (key text : String) → Except Error field.Value
  | sizes, _, text => parseSizes text
  | dtype, _, text => ElementType.parse text
  | engine, _, text => EngineKind.parse text
  | seed, key, text | threads, key, text => Choice.parseNumber key text
  | json, _, text | csv, _, text => .ok text

def choice : (field : Field) → field.Value → Choice
  | sizes => .sizes
  | dtype => .dtype
  | engine => .engine
  | seed => .seed
  | threads => .threads
  | json => .json
  | csv => .csv

def ofChoice? : (field : Field) → Choice → Option field.Value
  | sizes, .sizes s => some s
  | dtype, .dtype t => some t
  | engine, .engine k => some k
  | seed, .seed n => some n
  | threads, .threads n => some n
  | json, .json path => some path
  | csv, .csv path => some path
  | _, _ => none

def inConfig? : (field : Field) → Config → Option field.Value
  | sizes, config => some config.sizes
  | dtype, config => some config.dtype
  | engine, config => some config.engine
  | seed, config => config.seed
  | threads, config => config.threads
  | json, config => config.json
  | csv, config => config.csv

/-- The value without an option. -/
def fallback? (settings : Settings) (defaultSizes : List UInt64) :
    (field : Field) → Option field.Value
  | sizes => some defaultSizes
  | dtype => some settings.dtype
  | engine => some settings.engine
  | seed => settings.seed
  | threads => settings.threads
  | json => settings.output.json
  | csv => settings.output.csv

def IsFor (field : Field) (argument : String) : Prop :=
  ∃ key ∈ field.keys, ∃ text, argument = optionText key text

end Field

/-- The argument is an option, and this is what it chooses. -/
inductive Chooses : String → Choice → Prop
  | value (field : Field) {key text : String} {x : field.Value} (hkey : key ∈ field.keys)
    (hread : field.read key text = .ok x) : Chooses (optionText key text) (field.choice x)
  | settingsFile (path : String) : Chooses (optionText "config" path) (.settingsFile path)

/-- The argument is no option, its key is unknown, or its text is refused. -/
inductive Refused : String → Error → Prop
  | form {argument : String} (h : ∀ key text, argument ≠ optionText key text) :
    Refused argument (.invalidArgument (.noKeyValue argument))
  | key {key text : String} (hcut : '=' ∉ key.toList) (hvalue : ∀ field : Field, key ∉ field.keys)
    (hfile : key ≠ "config") : Refused (optionText key text) (.invalidArgument (.unknownOption key))
  | value (field : Field) {key text : String} {e : Error} (hkey : key ∈ field.keys)
    (hread : field.read key text = .error e) : Refused (optionText key text) e

/-! ## Cutting options -/

theorem toList_optionText (key text : String) :
    (optionText key text).toList = '-' :: '-' :: (key.toList ++ '=' :: text.toList) := by
  simp [optionText]

theorem eq_append_of_dropWhile {cs value : List Char} {c : Char}
    (h : cs.dropWhile (· ≠ '=') = c :: value) :
    cs = cs.takeWhile (· ≠ '=') ++ '=' :: value ∧ '=' ∉ cs.takeWhile (· ≠ '=') := by
  have hhead := List.head?_dropWhile_not (· ≠ '=') cs
  rw [h] at hhead
  obtain rfl : c = '=' := by simpa using hhead
  constructor
  · rw [← h, List.takeWhile_append_dropWhile]
  · intro hmem
    exact absurd rfl (of_decide_eq_true (List.mem_takeWhile_imp (p := (· ≠ '=')) hmem))

namespace Choice

theorem keyValue?_eq_some_iff {argument key text : String} :
    keyValue? argument = some (key, text) ↔
      argument = optionText key text ∧ '=' ∉ key.toList := by
  constructor
  · intro h
    unfold keyValue? at h
    split at h
    · rename_i rest hargument
      split at h
      · rename_i c value hdrop
        cases h
        obtain ⟨hrest, hkey⟩ := eq_append_of_dropWhile hdrop
        rw [String.toList_ofList]
        refine ⟨String.toList_injective ?_, hkey⟩
        rw [toList_optionText, String.toList_ofList, String.toList_ofList, ← hrest, hargument]
      · cases h
    · cases h
  · rintro ⟨rfl, hkey⟩
    exact keyValue?_option hkey

theorem keyValue?_eq_none_iff {argument : String} :
    keyValue? argument = none ↔ ∀ key text, argument ≠ optionText key text := by
  constructor
  · rintro h key text rfl
    simp only [keyValue?, toList_optionText] at h
    split at h
    · cases h
    · rename_i hdrop
      have hsign := List.dropWhile_eq_nil_iff.mp hdrop '='
        (List.mem_append_right _ List.mem_cons_self)
      exact absurd rfl (of_decide_eq_true hsign)
  · intro h
    cases hcut : keyValue? argument with
    | none => rfl
    | some option => exact absurd (keyValue?_eq_some_iff.mp hcut).1 (h option.1 option.2)

/-! ## Reading options -/

theorem eq_sign_not_mem_of_mem_keys {field : Field} {key : String} (h : key ∈ field.keys) :
    '=' ∉ key.toList := by
  have hkeys : ∀ k ∈ field.keys, '=' ∉ k.toList := by cases field <;> decide
  exact hkeys key h

theorem ofKeyValue_of_mem_keys {field : Field} {key : String} (h : key ∈ field.keys)
    (text : String) : ofKeyValue key text = (field.read key text).map field.choice := by
  cases field with
  | engine =>
    rcases List.mem_pair.mp h with rfl | rfl
    · rfl
    · rfl
  | sizes | dtype | seed | threads | json | csv =>
    obtain rfl := List.mem_singleton.mp h
    rfl

theorem ofKeyValue_of_unknown {key : String} (hvalue : ∀ field : Field, key ∉ field.keys)
    (hfile : key ≠ "config") (text : String) :
    ofKeyValue key text = .error (.invalidArgument (.unknownOption key)) := by
  unfold ofKeyValue
  split
  · exact absurd List.mem_cons_self (hvalue .sizes)
  · exact absurd List.mem_cons_self (hvalue .dtype)
  · exact absurd List.mem_cons_self (hvalue .engine)
  · exact absurd (List.mem_cons_of_mem _ List.mem_cons_self) (hvalue .engine)
  · exact absurd List.mem_cons_self (hvalue .seed)
  · exact absurd List.mem_cons_self (hvalue .threads)
  · exact absurd List.mem_cons_self (hvalue .json)
  · exact absurd List.mem_cons_self (hvalue .csv)
  · exact absurd rfl hfile
  · rfl

theorem parse_optionText {key text : String} (hcut : '=' ∉ key.toList) :
    parse (optionText key text) = ofKeyValue key text := by
  rw [parse, keyValue?_eq_some_iff.mpr ⟨rfl, hcut⟩]

theorem keyValue?_of_mem_keys {field : Field} {key : String} (h : key ∈ field.keys)
    (text : String) : keyValue? (optionText key text) = some (key, text) :=
  keyValue?_eq_some_iff.mpr ⟨rfl, eq_sign_not_mem_of_mem_keys h⟩

theorem parse_of_mem_keys {field : Field} {key : String} (h : key ∈ field.keys) (text : String) :
    parse (optionText key text) = (field.read key text).map field.choice := by
  rw [parse_optionText (eq_sign_not_mem_of_mem_keys h), ofKeyValue_of_mem_keys h]

theorem parse_of_chooses {argument : String} {choice : Choice} (h : Chooses argument choice) :
    parse argument = .ok choice := by
  cases h with
  | value field hkey hread =>
    rw [parse_of_mem_keys hkey, hread]
    rfl
  | settingsFile path => exact parse_optionText (by decide)

theorem parse_of_refused {argument : String} {e : Error} (h : Refused argument e) :
    parse argument = .error e := by
  cases h with
  | form h => rw [parse, keyValue?_eq_none_iff.mpr h]
  | key hcut hvalue hfile => rw [parse_optionText hcut, ofKeyValue_of_unknown hvalue hfile]
  | value field hkey hread =>
    rw [parse_of_mem_keys hkey, hread]
    rfl

theorem chooses_or_refused (argument : String) :
    (∃ choice, Chooses argument choice) ∨ ∃ e, Refused argument e := by
  cases hcut : keyValue? argument with
  | none => exact .inr ⟨_, .form (keyValue?_eq_none_iff.mp hcut)⟩
  | some option =>
    obtain ⟨key, text⟩ := option
    obtain ⟨rfl, hkey⟩ := keyValue?_eq_some_iff.mp hcut
    by_cases hvalue : ∃ field : Field, key ∈ field.keys
    · obtain ⟨field, hfield⟩ := hvalue
      cases hread : field.read key text with
      | error e => exact .inr ⟨e, .value field hfield hread⟩
      | ok x => exact .inl ⟨_, .value field hfield hread⟩
    · rw [not_exists] at hvalue
      by_cases hfile : key = "config"
      · subst hfile
        exact .inl ⟨_, .settingsFile text⟩
      · exact .inr ⟨_, .key hkey hvalue hfile⟩

theorem parse_iff (argument : String) :
    (∀ choice, parse argument = .ok choice ↔ Chooses argument choice) ∧
      ∀ e, parse argument = .error e ↔ Refused argument e :=
  eq_iff_of_total (fun _ => parse_of_chooses) (fun _ => parse_of_refused)
    (chooses_or_refused argument)

end Choice

/-! ## The last option -/

namespace Field

theorem isFor_iff {field : Field} {argument : String} :
    field.IsFor argument ↔
      ∃ option, Choice.keyValue? argument = some option ∧ option.1 ∈ field.keys := by
  constructor
  · rintro ⟨key, hkey, text, rfl⟩
    exact ⟨(key, text), Choice.keyValue?_of_mem_keys hkey text, hkey⟩
  · rintro ⟨⟨key, text⟩, hcut, hkey⟩
    exact ⟨key, hkey, text, (Choice.keyValue?_eq_some_iff.mp hcut).1⟩

instance (field : Field) : DecidablePred field.IsFor :=
  fun argument => decidable_of_iff
    ((Choice.keyValue? argument).any fun option => option.1 ∈ field.keys)
    (by rw [isFor_iff, Option.any_eq_true]; simp only [decide_eq_true_eq])

/-- The value in an option. -/
def parse? (field : Field) (argument : String) : Option field.Value :=
  (Choice.keyValue? argument).bind fun option => (field.read option.1 option.2).toOption

/-- The value in the last of the options for the field. -/
def last? (field : Field) (options : List String) : Option field.Value :=
  (options.filter field.IsFor).getLast?.bind field.parse?

theorem eq_of_mem_keys {field other : Field} {key : String} (h : key ∈ field.keys)
    (h' : key ∈ other.keys) : other = field := by
  have hkeys : ∀ k ∈ field.keys, k ∈ other.keys → other = field := by
    cases field <;> cases other <;> decide
  exact hkeys key h h'

theorem config_not_mem_keys (field : Field) : "config" ∉ field.keys := by
  cases field <;> decide

theorem ofChoice?_choice (field : Field) (x : field.Value) :
    field.ofChoice? (field.choice x) = some x := by
  cases field <;> rfl

theorem ofChoice?_choice_of_ne {field other : Field} (h : other ≠ field) (x : field.Value) :
    other.ofChoice? (field.choice x) = none := by
  cases field <;> cases other <;> first | rfl | exact absurd rfl h

end Field

/-- An argument is an option for a field just if its choice gives the field a value. -/
theorem Chooses.isFor_cases {argument : String} {choice : Choice} (h : Chooses argument choice)
    (field : Field) :
    (∃ x, field.IsFor argument ∧ field.parse? argument = some x ∧
      field.ofChoice? choice = some x) ∨
    ¬ field.IsFor argument ∧ field.ofChoice? choice = none := by
  cases h with
  | @value owner key text x hkey hread =>
    by_cases heq : field = owner
    · subst heq
      refine .inl ⟨x, ⟨key, hkey, text, rfl⟩, ?_, field.ofChoice?_choice x⟩
      rw [Field.parse?, Choice.keyValue?_of_mem_keys hkey, Option.bind_some, hread]
      rfl
    · refine .inr ⟨?_, Field.ofChoice?_choice_of_ne heq x⟩
      rw [Field.isFor_iff, Choice.keyValue?_of_mem_keys hkey]
      rintro ⟨option, ⟨⟩, hfield⟩
      exact heq (Field.eq_of_mem_keys hkey hfield)
  | settingsFile path =>
    refine .inr ⟨?_, by cases field <;> rfl⟩
    rw [Field.isFor_iff, Choice.keyValue?_eq_some_iff.mpr ⟨rfl, by decide⟩]
    rintro ⟨option, ⟨⟩, hfield⟩
    exact field.config_not_mem_keys hfield

theorem Field.map_parse?_filter {options : List String} {choices : List Choice}
    (h : List.Forall₂ Chooses options choices) (field : Field) :
    (options.filter field.IsFor).map field.parse? =
      (choices.filterMap field.ofChoice?).map some := by
  induction h with
  | nil => rfl
  | @cons argument choice options choices hfirst _ ih =>
    rcases hfirst.isFor_cases field with ⟨x, hfor, hparse, hchoice⟩ | ⟨hfor, hchoice⟩
    · rw [List.filter_cons, if_pos (decide_eq_true hfor), List.filterMap_cons_some hchoice,
        List.map_cons, List.map_cons, hparse, ih]
    · rw [List.filter_cons, if_neg (by simpa using hfor), List.filterMap_cons_none hchoice, ih]

theorem Field.last?_eq {options : List String} {choices : List Choice}
    (h : List.Forall₂ Chooses options choices) (field : Field) :
    field.last? options = (choices.filterMap field.ofChoice?).getLast? := by
  have hlast := congrArg List.getLast? (Field.map_parse?_filter h field)
  rw [List.getLast?_map, List.getLast?_map] at hlast
  rw [last?]
  cases hargument : (options.filter field.IsFor).getLast? with
  | none =>
    rw [hargument] at hlast
    exact (Option.map_eq_none_iff.mp hlast.symm).symm
  | some argument =>
    rw [hargument] at hlast
    obtain ⟨x, hx, hparse⟩ := Option.map_eq_some_iff.mp hlast.symm
    rw [hx, Option.bind_some, ← hparse]

theorem Field.inConfig?_apply (field : Field) (config : Config) (choice : Choice) :
    field.inConfig? (choice.apply config) =
      (field.ofChoice? choice).or (field.inConfig? config) := by
  cases field <;> cases choice <;> rfl

theorem Field.inConfig?_ofSettings (field : Field) (script : String) (settings : Settings)
    (defaultSizes : List UInt64) :
    field.inConfig? (.ofSettings script settings defaultSizes) =
      field.fallback? settings defaultSizes := by
  cases field <;> rfl

/-! ## Configurations -/

/-- There are no sizes, or there is a zero among them. -/
inductive LacksSizes (script : String) (sizes : List UInt64) : SizeFault → Prop
  | none (h : sizes = []) : LacksSizes script sizes (.noneGiven script)
  | zero (h : 0 ∈ sizes) : LacksSizes script sizes (.zeroGiven script)

namespace Config

theorem checked_iff (config : Config) :
    (∀ found, config.checked = .ok found ↔ found = config ∧ AreSizes config.sizes) ∧
      ∀ e, config.checked = .error e ↔
        ∃ fault, LacksSizes config.script config.sizes fault ∧ e = .invalidSize fault := by
  refine ⟨fun _ => checked_eq_ok_iff, fun e => ?_⟩
  unfold checked
  split
  · rename_i hempty
    have hnil : config.sizes = [] := List.isEmpty_iff.mp hempty
    constructor
    · rintro ⟨⟩
      exact ⟨_, .none hnil, rfl⟩
    · rintro ⟨fault, hnone | hzero, rfl⟩
      · rfl
      · rw [hnil] at hzero
        cases hzero
  · rename_i hne
    split
    · rename_i hzero
      constructor
      · rintro ⟨⟩
        exact ⟨_, .zero (List.contains_iff_mem.mp hzero), rfl⟩
      · rintro ⟨fault, hnone | -, rfl⟩
        · exact absurd (List.isEmpty_iff.mpr hnone) hne
        · rfl
    · rename_i hpositive
      constructor
      · rintro ⟨⟩
      · rintro ⟨fault, hnone | hzero, rfl⟩
        · exact absurd (List.isEmpty_iff.mpr hnone) hne
        · exact absurd (List.contains_iff_mem.mpr hzero) hpositive

theorem eq_of_inConfig? {config other : Config} (hscript : other.script = config.script)
    (h : ∀ field : Field, field.inConfig? other = field.inConfig? config) : other = config := by
  obtain ⟨script, sizes, dtype, engine, seed, threads, json, csv⟩ := other
  obtain rfl := Option.some.inj (h .sizes)
  obtain rfl := Option.some.inj (h .dtype)
  obtain rfl := Option.some.inj (h .engine)
  obtain rfl : seed = config.seed := h .seed
  obtain rfl : threads = config.threads := h .threads
  obtain rfl : json = config.json := h .json
  obtain rfl : csv = config.csv := h .csv
  obtain rfl : script = config.script := hscript
  rfl

section

variable {script : String} {options : List String} {settings : Settings}
  {defaultSizes : List UInt64} {choices : List Choice}

theorem mapM_parse_iff :
    options.mapM Choice.parse = .ok choices ↔ List.Forall₂ Chooses options choices := by
  simp only [mapM_eq_ok_iff, (Choice.parse_iff _).1]

theorem inConfig?_foldl_apply (hchoices : List.Forall₂ Chooses options choices) (field : Field) :
    field.inConfig? (choices.foldl Choice.apply (ofSettings script settings defaultSizes)) =
      (field.last? options).or (field.fallback? settings defaultSizes) := by
  rw [get_foldl field.inConfig?_apply, field.last?_eq hchoices, field.inConfig?_ofSettings]

theorem sizes_foldl_apply (hchoices : List.Forall₂ Chooses options choices) :
    (choices.foldl Choice.apply (ofSettings script settings defaultSizes)).sizes =
      (Field.sizes.last? options).getD defaultSizes := by
  apply Option.some.inj
  refine (inConfig?_foldl_apply hchoices .sizes).trans ?_
  cases Field.sizes.last? options with
  | none => rfl
  | some sizes => rfl

/-- Sizes that an option gives need no check. -/
theorem areSizes_of_last? (hchoices : List.Forall₂ Chooses options choices) {sizes : List UInt64}
    (h : Field.sizes.last? options = some sizes) : AreSizes sizes := by
  rw [Field.last?_eq hchoices] at h
  obtain ⟨choice, hchoice, hsizes⟩ := List.mem_filterMap.mp (List.mem_of_getLast? h)
  obtain ⟨argument, -, hparse⟩ := (of_mapM_eq_ok (mapM_parse_iff.mpr hchoices)).2 choice hchoice
  cases choice <;> cases hsizes
  exact Choice.areSizes_of_parse hparse

theorem ofOptions_of_choices (hchoices : List.Forall₂ Chooses options choices) :
    ofOptions script options settings defaultSizes =
      (choices.foldl Choice.apply (ofSettings script settings defaultSizes)).checked := by
  rw [ofOptions, mapM_parse_iff.mpr hchoices]

/-- One more option makes its choice in the configuration of the others. -/
theorem ofOptions_append {config : Config} {argument : String} {choice : Choice}
    (h : ofOptions script options settings defaultSizes = .ok config)
    (hchoice : Chooses argument choice) :
    ofOptions script (options ++ [argument]) settings defaultSizes =
      (choice.apply config).checked := by
  cases hparse : options.mapM Choice.parse with
  | error e =>
    rw [ofOptions, hparse] at h
    cases h
  | ok choices =>
    have hchoices := mapM_parse_iff.mp hparse
    rw [ofOptions_of_choices hchoices] at h
    obtain ⟨rfl, -⟩ := checked_eq_ok_iff.mp h
    rw [ofOptions_of_choices (List.rel_append hchoices (.cons hchoice .nil)), List.foldl_append]
    rfl

theorem exists_ofOptions_iff :
    (∃ config, ofOptions script options settings defaultSizes = .ok config) ↔
      (∀ argument ∈ options, ∃ choice, Chooses argument choice) ∧
        AreSizes ((Field.sizes.last? options).getD defaultSizes) := by
  rw [← exists_forall₂_iff]
  constructor
  · rintro ⟨config, h⟩
    cases hparse : options.mapM Choice.parse with
    | error e =>
      rw [ofOptions, hparse] at h
      cases h
    | ok choices =>
      have hchoices := mapM_parse_iff.mp hparse
      rw [ofOptions_of_choices hchoices] at h
      obtain ⟨-, hsizes⟩ := checked_eq_ok_iff.mp h
      rw [sizes_foldl_apply hchoices] at hsizes
      exact ⟨⟨choices, hchoices⟩, hsizes⟩
  · rintro ⟨⟨choices, hchoices⟩, hsizes⟩
    rw [ofOptions_of_choices hchoices]
    refine ⟨_, checked_eq_ok_iff.mpr ⟨rfl, ?_⟩⟩
    rwa [sizes_foldl_apply hchoices]

theorem inConfig?_of_ofOptions {config : Config}
    (h : ofOptions script options settings defaultSizes = .ok config) :
    config.script = script ∧ ∀ field : Field, field.inConfig? config =
      (field.last? options).or (field.fallback? settings defaultSizes) := by
  cases hparse : options.mapM Choice.parse with
  | error e =>
    rw [ofOptions, hparse] at h
    cases h
  | ok choices =>
    have hchoices := mapM_parse_iff.mp hparse
    rw [ofOptions_of_choices hchoices] at h
    obtain ⟨rfl, -⟩ := checked_eq_ok_iff.mp h
    exact ⟨script_foldl_apply choices _, inConfig?_foldl_apply hchoices⟩

theorem ofOptions_eq_error_iff {e : Error} :
    ofOptions script options settings defaultSizes = .error e ↔
      (∃ before argument after, options = before ++ argument :: after ∧
        (∀ a ∈ before, ∃ choice, Chooses a choice) ∧ Refused argument e) ∨
      (∀ argument ∈ options, ∃ choice, Chooses argument choice) ∧
        Field.sizes.last? options = none ∧
        ∃ fault, LacksSizes script defaultSizes fault ∧ e = .invalidSize fault := by
  have hrefused : options.mapM Choice.parse = .error e ↔
      ∃ before argument after, options = before ++ argument :: after ∧
        (∀ a ∈ before, ∃ choice, Chooses a choice) ∧ Refused argument e := by
    simp only [mapM_eq_error_iff, (Choice.parse_iff _).1, (Choice.parse_iff _).2]
  rw [← hrefused, ← exists_forall₂_iff]
  cases hparse : options.mapM Choice.parse with
  | error e' =>
    have hnone : ¬ ∃ choices, List.Forall₂ Chooses options choices := by
      rintro ⟨choices, hchoices⟩
      cases hparse.symm.trans (mapM_parse_iff.mpr hchoices)
    have hfault : ofOptions script options settings defaultSizes = .error e' := by
      rw [ofOptions, hparse]
    rw [hfault, Except.error.injEq, Except.error.injEq]
    constructor
    · exact .inl
    · rintro (h | ⟨hchoices, -⟩)
      · exact h
      · exact absurd hchoices hnone
  | ok choices =>
    have hchoices := mapM_parse_iff.mp hparse
    rw [ofOptions_of_choices hchoices, (checked_iff _).2, sizes_foldl_apply hchoices,
      script_foldl_apply]
    -- Sizes of an option were checked when it was read, so only the default sizes can be at fault.
    constructor
    · rintro ⟨fault, hfault, rfl⟩
      refine .inr ⟨⟨choices, hchoices⟩, ?_⟩
      cases hlast : Field.sizes.last? options with
      | none =>
        rw [hlast] at hfault
        exact ⟨rfl, fault, hfault, rfl⟩
      | some sizes =>
        obtain ⟨hne, hpos⟩ := areSizes_of_last? hchoices hlast
        rw [hlast] at hfault
        rcases hfault with hnone | hzero
        · exact absurd hnone hne
        · exact absurd rfl (hpos 0 hzero)
    · rintro (⟨⟨⟩⟩ | ⟨-, hlast, hfault⟩)
      rw [hlast]
      exact hfault

theorem ofOptions_settingsFile (before : List String) (path : String) (after : List String) :
    ofOptions script (before ++ optionText "config" path :: after) settings defaultSizes =
      ofOptions script (before ++ after) settings defaultSizes := by
  rw [ofOptions, ofOptions, List.mapM_append, List.mapM_append,
    mapM_cons_of_ok (Choice.parse_of_chooses (.settingsFile path))]
  cases before.mapM Choice.parse with
  | error e => rfl
  | ok first =>
    cases after.mapM Choice.parse with
    | error e => rfl
    | ok second =>
      change Config.checked ((first ++ Choice.settingsFile path :: second).foldl _ _) =
        Config.checked ((first ++ second).foldl _ _)
      rw [List.foldl_append, List.foldl_append]
      rfl

end

/-- Every option is checked, the leftmost that is refused decides the error, and the last for a field
decides its value. -/
theorem ofOptions_precedence (script : String) (options : List String) (settings : Settings)
    (defaultSizes : List UInt64) :
    ((∃ config, ofOptions script options settings defaultSizes = .ok config) ↔
      (∀ argument ∈ options, ∃ choice, Chooses argument choice) ∧
        AreSizes ((Field.sizes.last? options).getD defaultSizes)) ∧
    (∀ config, ofOptions script options settings defaultSizes = .ok config →
      config.script = script ∧ ∀ field : Field, field.inConfig? config =
        (field.last? options).or (field.fallback? settings defaultSizes)) ∧
    (∀ e, ofOptions script options settings defaultSizes = .error e ↔
      (∃ before argument after, options = before ++ argument :: after ∧
        (∀ a ∈ before, ∃ choice, Chooses a choice) ∧ Refused argument e) ∨
      (∀ argument ∈ options, ∃ choice, Chooses argument choice) ∧
        Field.sizes.last? options = none ∧
        ∃ fault, LacksSizes script defaultSizes fault ∧ e = .invalidSize fault) ∧
    (∀ before path after, options = before ++ optionText "config" path :: after →
      ofOptions script options settings defaultSizes =
        ofOptions script (before ++ after) settings defaultSizes) ∧
    ∀ (options' : List String) (config config' : Config),
      ofOptions script options settings defaultSizes = .ok config →
      ofOptions script options' settings defaultSizes = .ok config' →
      (∀ field : Field, options'.filter field.IsFor = options.filter field.IsFor) →
      config' = config := by
  refine ⟨exists_ofOptions_iff, fun _ => inConfig?_of_ofOptions, fun _ => ofOptions_eq_error_iff,
    ?_, ?_⟩
  · rintro before path after rfl
    exact ofOptions_settingsFile before path after
  · intro options' config config' h h' hsame
    obtain ⟨hscript, hfields⟩ := inConfig?_of_ofOptions h
    obtain ⟨hscript', hfields'⟩ := inConfig?_of_ofOptions h'
    refine eq_of_inConfig? (hscript'.trans hscript.symm) fun field => ?_
    rw [hfields, hfields', Field.last?, Field.last?, hsame]

theorem ofOptions_precedence_overriddenSeed :
    ∃ config : Config, config.seed = some 7 ∧ config.engine = .parallel ∧
      ofOptions "fill" ["--seed=1", "--bohrium=parallel", "--seed=+7"] {} [4] = .ok config ∧
      ofOptions "fill" ["--bohrium=parallel", "--config=a=b", "--seed=1", "--seed=+7"] {} [4] =
        .ok config ∧
      ofOptions "fill" ["--seed=1", "--threads=x", "--seed=y"] {} [4] =
        .error (.invalidArgument (.notNumber "threads" "x")) := by
  have hfirst : ofOptions "fill" ["--seed=1", "--bohrium=parallel", "--seed=+7"] {} [4] =
      .ok ⟨"fill", [4], .float64, .parallel, some 7, none, none, none⟩ := by decide +kernel
  refine ⟨_, rfl, rfl, hfirst, ?_, ?_⟩
  · obtain ⟨config, hsecond⟩ : ∃ config, ofOptions "fill"
        ["--bohrium=parallel", "--config=a=b", "--seed=1", "--seed=+7"] {} [4] = .ok config :=
      ⟨_, rfl⟩
    rw [hsecond, (ofOptions_precedence "fill" _ {} [4]).2.2.2.2 _ _ _ hfirst hsecond]
    intro field
    cases field <;> decide +kernel
  · refine ((ofOptions_precedence "fill" _ {} [4]).2.2.1 _).mpr (.inl
      ⟨["--seed=1"], "--threads=x", ["--seed=y"], rfl, ?_, ?_⟩)
    · intro a ha
      obtain rfl := List.mem_singleton.mp ha
      exact ⟨.seed 1, ((Choice.parse_iff "--seed=1").1 _).mp rfl⟩
    · exact ((Choice.parse_iff "--threads=x").2 _).mp rfl

end Config

end DenseBench.Run
