import DenseBench.Proofs.Run.Options
import DenseBench.Proofs.Settings.Chosen
import DenseBench.Proofs.Settings.Guess
import DenseBench.Proofs.Settings.Overlay

/-!
# The highest layer counts

Every leaf of the settings comes from the highest layer that gives it: the command line, the
environment, the file, the defaults. What is given to other leaves does not matter.
-/

namespace DenseBench

open Run

namespace Settings

namespace Leaf

@[reducible]
def Value : Leaf → Type
  | engine => EngineKind
  | dtype => ElementType
  | threads | seed => UInt64
  | logLevel | json | csv => String

/-- The value that is written in a file or a variable: a name, a text, or a whole number, which
stands as a text where a format has nothing but texts. -/
def read? : (leaf : Leaf) → Tree → Option leaf.Value
  | engine, .text name => EngineKind.byName.lookup (lowerKey name)
  | dtype, .text name => ElementType.byName.lookup (lowerKey name)
  | threads, .int n | seed, .int n =>
    if 0 ≤ n ∧ n < 2 ^ 63 then some (UInt64.ofNat n.toNat) else none
  | threads, .text s | seed, .text s => (Text.readUnsigned? (2 ^ 63) s.toList).map UInt64.ofNat
  | logLevel, .text s | json, .text s | csv, .text s => some s
  | _, _ => none

def default : (leaf : Leaf) → Option leaf.Value
  | engine => some EngineKind.reference
  | dtype => some ElementType.float64
  | logLevel => some "info"
  | threads | seed | json | csv => none

def isOptional (leaf : Leaf) : Bool :=
  leaf.default.isNone

def inLayer? (leaf : Leaf) (layer : List (String × Tree)) : Option leaf.Value :=
  (leaf.values layer).head?.bind leaf.read?

def ofChoice? : (leaf : Leaf) → Choice → Option leaf.Value
  | engine, .engine k => some k
  | dtype, .dtype t => some t
  | threads, .threads n => some n
  | seed, .seed n => some n
  | json, .json path => some path
  | csv, .csv path => some path
  | _, _ => none

/-- The value that the command line gives to the leaf, if it does; of several the last. -/
def inOptions? (leaf : Leaf) (choices : List Choice) : Option leaf.Value :=
  (choices.filterMap leaf.ofChoice?).getLast?

def inSettings? : (leaf : Leaf) → Settings → Option leaf.Value
  | engine, settings => some settings.engine
  | dtype, settings => some settings.dtype
  | threads, settings => settings.threads
  | seed, settings => settings.seed
  | logLevel, settings => some settings.logLevel
  | json, settings => settings.output.json
  | csv, settings => settings.output.csv

/-- The value that a run goes by: that of its configuration, and for the log level, which has no
option, that of the settings. -/
def inRun? : (leaf : Leaf) → Settings → Config → Option leaf.Value
  | engine, _, config => some config.engine
  | dtype, _, config => some config.dtype
  | threads, _, config => config.threads
  | seed, _, config => config.seed
  | logLevel, settings, _ => some settings.logLevel
  | json, _, config => config.json
  | csv, _, config => config.csv

end Leaf

/-- The layer gives each leaf at most one value, which is of its type; a leaf without a default may
also be given a null. To fit, a layer must also give nothing but a table to the outputs as a whole,
and no key of it may lead below a leaf or to an item of one: otherwise a table or a list would stand
where a value of another type should, or the outputs would be told by their places instead of their
names. Keys that are no settings, and what stands below them, fit whatever they hold. -/
structure LayerSound (layer : List (String × Tree)) : Prop where
  fits : LayerFits layer
  once : ∀ leaf : Leaf, (leaf.values layer).length ≤ 1
  typed : ∀ leaf : Leaf, ∀ v ∈ leaf.values layer,
    (leaf.read? v).isSome ∨ v = .null ∧ leaf.isOptional

def Tree.isNull : Tree → Bool
  | .null => true
  | _ => false

theorem Tree.isNull_iff {t : Tree} : t.isNull = true ↔ t = .null := by
  cases t <;> simp [isNull]

theorem layerSound_iff (layer : List (String × Tree)) :
    (LayerFits layer ∧ ∀ leaf ∈ Leaf.all, (leaf.values layer).length ≤ 1 ∧
      ∀ v ∈ leaf.values layer, (leaf.read? v).isSome ∨ v.isNull ∧ leaf.isOptional) ↔
      LayerSound layer := by
  simp only [Tree.isNull_iff]
  constructor
  · rintro ⟨hfits, hleaves⟩
    exact ⟨hfits, fun leaf => (hleaves leaf leaf.mem_all).1,
      fun leaf => (hleaves leaf leaf.mem_all).2⟩
  · intro h
    exact ⟨h.fits, fun leaf _ => ⟨h.once leaf, h.typed leaf⟩⟩

instance : DecidablePred LayerSound :=
  fun layer => decidable_of_iff _ (layerSound_iff layer)

/-! ## Settings out of a tree -/

/-- What stands in a tree is the given value, or nothing where none is needed. -/
def Stands (leaf : Leaf) (found : Option Tree) (x : Option leaf.Value) : Prop :=
  (∃ v, found = some v ∧ leaf.read? v = x ∧ x.isSome) ∨
    leaf.isOptional ∧ (found = none ∨ found = some .null) ∧ x = none

def Leaf.decode : (leaf : Leaf) → Tree → Except SettingsFault leaf.Value
  | engine => Tree.toChoice EngineKind.byName
  | dtype => Tree.toChoice ElementType.byName
  | threads | seed => Tree.toWord
  | logLevel | json | csv => Tree.toText

theorem toChoice_text {β : Type} {choices : List (String × β)} {name : String} {x : β}
    (h : choices.lookup (lowerKey name) = some x) :
    Tree.toChoice choices (.text name) = .ok x := by
  unfold Tree.toChoice
  dsimp only
  rw [h]

theorem toWord_int {n : Int} {x : UInt64}
    (h : (if 0 ≤ n ∧ n < 2 ^ 63 then some (UInt64.ofNat n.toNat) else none) = some x) :
    Tree.toWord (.int n) = .ok x := by
  split at h
  · rename_i hn
    cases h
    exact if_pos hn.1
  · cases h

theorem toWord_text {s : String} {x : UInt64}
    (h : (Text.readUnsigned? (2 ^ 63) s.toList).map UInt64.ofNat = some x) :
    Tree.toWord (.text s) = .ok x := by
  obtain ⟨n, hread, rfl⟩ := Option.map_eq_some_iff.mp h
  obtain ⟨hnumeral, hlt⟩ := Text.readUnsigned?_eq_some_iff.mp hread
  have hword : Tree.wordOfText? s = some n :=
    Tree.wordOfText?_of_isNumeral hnumeral (hlt.trans (by decide))
  rw [Tree.toWord, hword]

theorem Leaf.decode_of_read {leaf : Leaf} {v : Tree} {x : leaf.Value}
    (h : leaf.read? v = some x) : leaf.decode v = .ok x := by
  cases leaf with
  | engine | dtype =>
    cases v with
    | text name => exact toChoice_text h
    | _ => cases h
  | threads | seed =>
    cases v with
    | int n => exact toWord_int h
    | text s => exact toWord_text h
    | _ => cases h
  | logLevel | json | csv =>
    cases v with
    | text s => exact congrArg Except.ok (Option.some.inj h)
    | _ => cases h

namespace Stands

variable {leaf : Leaf} {found : Option Tree} {x : Option leaf.Value}

theorem toRequired (h : Stands leaf found x) (hleaf : leaf.isOptional = false) :
    ∃ y, x = some y ∧ Tree.toRequired leaf.decode found = .ok y := by
  rcases h with ⟨v, rfl, hread, hx⟩ | ⟨hoptional, -⟩
  · obtain ⟨y, rfl⟩ := Option.isSome_iff_exists.mp hx
    exact ⟨y, rfl, Leaf.decode_of_read hread⟩
  · rw [hleaf] at hoptional
    cases hoptional

theorem toOptional (h : Stands leaf found x) : Tree.toOptional leaf.decode found = .ok x := by
  rcases h with ⟨v, rfl, hread, hx⟩ | ⟨-, rfl | rfl, rfl⟩
  · obtain ⟨y, rfl⟩ := Option.isSome_iff_exists.mp hx
    cases v with
    | null => cases leaf <;> cases hread
    | _ => exact congrArg (Except.map some) (Leaf.decode_of_read hread)
  · rfl
  · rfl

end Stands

theorem outputOf_eq {t : Tree} (ht : t.Shaped) {json csv : Option String}
    (hjson : Tree.toOptional Tree.toText (t.leaf? .json) = .ok json)
    (hcsv : Tree.toOptional Tree.toText (t.leaf? .csv) = .ok csv) :
    (match t.entries.lookup "output" with
      | some output => output.toOutput
      | none => .ok {}) = .ok ⟨json, csv⟩ := by
  rw [Tree.leaf?_of_output rfl] at hjson hcsv
  cases hlookup : t.entries.lookup "output" with
  | none =>
    rw [outputKey, hlookup] at hjson hcsv
    cases hjson
    cases hcsv
    rfl
  | some output =>
    obtain ⟨entries, rfl⟩ := ht output hlookup
    rw [outputKey, hlookup] at hjson hcsv
    have hjson' : Tree.toOptional Tree.toText (entries.lookup "json") = .ok json := hjson
    have hcsv' : Tree.toOptional Tree.toText (entries.lookup "csv") = .ok csv := hcsv
    simp only [Tree.toOutput, hjson', hcsv', bind, Except.bind, pure, Except.pure]

/-- The settings are what the tree says. -/
structure Reads (t : Tree) (settings : Settings) : Prop where
  engine : Tree.toRequired (Tree.toChoice EngineKind.byName) (t.entries.lookup "engine") =
    .ok settings.engine
  dtype : Tree.toRequired (Tree.toChoice ElementType.byName) (t.entries.lookup "dtype") =
    .ok settings.dtype
  threads : Tree.toOptional Tree.toWord (t.entries.lookup "threads") = .ok settings.threads
  seed : Tree.toOptional Tree.toWord (t.entries.lookup "seed") = .ok settings.seed
  logLevel : Tree.toRequired Tree.toText (t.entries.lookup "log_level") = .ok settings.logLevel
  output : (match t.entries.lookup "output" with
    | some output => output.toOutput
    | none => .ok {}) = .ok settings.output

theorem Reads.ofTree_eq {t : Tree} {settings : Settings} (h : Reads t settings) :
    ofTree t = .ok settings := by
  have houtput := h.output
  simp only [ofTree, h.engine, h.dtype, h.threads, h.seed, h.logLevel, bind, Except.bind, pure,
    Except.pure]
  cases hlookup : t.entries.lookup "output" with
  | none =>
    rw [hlookup] at houtput
    cases settings
    cases houtput
    rfl
  | some output =>
    rw [hlookup] at houtput
    dsimp only at houtput ⊢
    rw [houtput]

theorem exists_of_bind_eq_ok {ε β γ : Type} {x : Except ε β} {f : β → Except ε γ} {z : γ}
    (h : x >>= f = .ok z) : ∃ y, x = .ok y ∧ f y = .ok z := by
  cases x with
  | error e => cases h
  | ok y => exact ⟨y, rfl, h⟩

theorem reads_of_ofTree {t : Tree} {settings : Settings} (h : ofTree t = .ok settings) :
    Reads t settings := by
  obtain ⟨engine, hengine, h⟩ := exists_of_bind_eq_ok h
  obtain ⟨dtype, hdtype, h⟩ := exists_of_bind_eq_ok h
  obtain ⟨threads, hthreads, h⟩ := exists_of_bind_eq_ok h
  obtain ⟨seed, hseed, h⟩ := exists_of_bind_eq_ok h
  obtain ⟨logLevel, hlogLevel, h⟩ := exists_of_bind_eq_ok h
  dsimp only at h
  split at h
  · rename_i tree hlookup
    obtain ⟨output, houtput, h⟩ := exists_of_bind_eq_ok h
    cases h
    exact ⟨hengine, hdtype, hthreads, hseed, hlogLevel, by rwa [hlookup]⟩
  · rename_i hlookup
    cases h
    exact ⟨hengine, hdtype, hthreads, hseed, hlogLevel, by rw [hlookup]⟩

/-- Settings are read out of a tree in which every leaf stands. -/
theorem exists_ofTree {t : Tree} (ht : t.Shaped) {x : (leaf : Leaf) → Option leaf.Value}
    (h : ∀ leaf, Stands leaf (t.leaf? leaf) (x leaf)) :
    ∃ settings, ofTree t = .ok settings ∧ ∀ leaf : Leaf, leaf.inSettings? settings = x leaf := by
  obtain ⟨engine, hengine, hreadEngine⟩ := (h .engine).toRequired rfl
  obtain ⟨dtype, hdtype, hreadDtype⟩ := (h .dtype).toRequired rfl
  obtain ⟨logLevel, hlogLevel, hreadLogLevel⟩ := (h .logLevel).toRequired rfl
  have hreadThreads := (h .threads).toOptional
  have hreadSeed := (h .seed).toOptional
  have houtput := outputOf_eq ht (h .json).toOptional (h .csv).toOptional
  rw [Tree.leaf?_of_root rfl] at hreadEngine hreadDtype hreadLogLevel hreadThreads hreadSeed
  refine ⟨⟨engine, dtype, x .threads, x .seed, logLevel, ⟨x .json, x .csv⟩⟩,
    Reads.ofTree_eq ⟨hreadEngine, hreadDtype, hreadThreads, hreadSeed, hreadLogLevel, houtput⟩, ?_⟩
  intro leaf
  cases leaf with
  | engine => exact hengine.symm
  | dtype => exact hdtype.symm
  | logLevel => exact hlogLevel.symm
  | threads | seed | json | csv => rfl

/-! ## Layers one over the other -/

theorem variableValue_isPlain (s : String) :
    (variableValue s).IsPlain ∧ variableValue s ≠ .null := by
  obtain ⟨value, hvalue⟩ : ∃ value, value = variableValue s := ⟨_, rfl⟩
  rw [← hvalue]
  unfold variableValue at hvalue
  dsimp only at hvalue
  split at hvalue
  · subst hvalue
    exact ⟨trivial, nofun⟩
  split at hvalue
  · subst hvalue
    exact ⟨trivial, nofun⟩
  split at hvalue
  · subst hvalue
    exact ⟨trivial, nofun⟩
  split at hvalue <;> subst hvalue <;> exact ⟨trivial, nofun⟩

theorem Leaf.eq_of_mem_among {leaf : Leaf} {key : String} {value v : Tree}
    (h : v ∈ leaf.among [(key, value)]) : v = value := by
  rw [among_singleton] at h
  split at h
  · exact List.mem_singleton.mp h
  · cases h

theorem Leaf.eq_of_mem_given {leaf : Leaf} {path : KeyPath} {value v : Tree}
    (hvalue : value.IsPlain) (h : v ∈ leaf.given path value) : v = value := by
  cases path with
  | name key =>
    rw [given] at h
    split at h
    · have hentries : value.entries = [] := by
        cases value with
        | table entries => exact hvalue.elim
        | _ => rfl
      rw [hentries] at h
      split at h <;> cases h
    · exact eq_of_mem_among h
  | child parent key =>
    cases parent with
    | name parent =>
      rw [given] at h
      split at h
      · exact eq_of_mem_among h
      · cases h
    | child _ _ => cases h
    | item _ _ => cases h
  | item parent index => cases h

theorem ne_null_of_mem_environment {leaf : Leaf} {environment : List (String × String)} {v : Tree}
    (h : v ∈ leaf.values (environmentLayer environment)) : v ≠ .null := by
  obtain ⟨entry, hentry, hv⟩ := List.mem_flatMap.mp h
  obtain ⟨variable', -, hentry⟩ := List.mem_filterMap.mp hentry
  obtain ⟨key, -, rfl⟩ := Option.map_eq_some_iff.mp hentry
  obtain ⟨hplain, hne⟩ := variableValue_isPlain variable'.2
  rwa [Leaf.eq_of_mem_given hplain hv]

theorem LayerSound.isPlain {layer : List (String × Tree)} (h : LayerSound layer) {leaf : Leaf}
    {v : Tree} (hv : v ∈ leaf.values layer) : v.IsPlain := by
  rcases h.typed leaf v hv with hread | ⟨rfl, -⟩
  · cases v with
    | table entries => cases leaf <;> cases hread
    | _ => trivial
  · trivial

theorem LayerSound.getLast?_values {layer : List (String × Tree)} (h : LayerSound layer)
    (leaf : Leaf) : (leaf.values layer).getLast? = (leaf.values layer).head? := by
  have honce := h.once leaf
  generalize leaf.values layer = vs at honce ⊢
  match vs with
  | [] => rfl
  | [v] => rfl
  | v :: w :: rest =>
    rw [List.length_cons, List.length_cons] at honce
    omega

theorem values_defaultLayer (leaf : Leaf) :
    leaf.values defaultLayer = match leaf with
      | .engine => [.text "reference"]
      | .dtype => [.text "float64"]
      | .logLevel => [.text "info"]
      | _ => [] := by
  cases leaf <;> rfl

theorem layerSound_defaultLayer : LayerSound defaultLayer := by
  decide +kernel

/-- What a layer gives to a leaf counts over what stood there, and nulls only stand for nothing. -/
theorem Stands.overlay {leaf : Leaf} {found : Option Tree} {x : Option leaf.Value}
    (hbelow : Stands leaf found x) {layer : List (String × Tree)} (h : LayerSound layer)
    (hnull : .null ∈ leaf.values layer → leaf.isOptional = true → x = none) :
    Stands leaf ((leaf.values layer).getLast?.or found) ((leaf.inLayer? layer).or x) := by
  rw [h.getLast?_values, Leaf.inLayer?]
  cases hgiven : (leaf.values layer).head? with
  | none => exact hbelow
  | some v =>
    have hmem : v ∈ leaf.values layer := List.mem_of_mem_head? hgiven
    rcases h.typed leaf v hmem with hread | ⟨rfl, hoptional⟩
    · obtain ⟨y, hy⟩ := Option.isSome_iff_exists.mp hread
      exact .inl ⟨v, rfl, by rw [Option.bind_some, hy]; rfl, by rw [Option.bind_some, hy]; rfl⟩
    · have hnone : leaf.read? .null = none := by cases leaf <;> rfl
      obtain rfl := hnull hmem hoptional
      exact .inr ⟨hoptional, .inr rfl, by rw [Option.bind_some, hnone]; rfl⟩

theorem stands_default (leaf : Leaf) :
    Stands leaf ((leaf.values defaultLayer).getLast?.or none) leaf.default := by
  rw [values_defaultLayer]
  cases leaf with
  | engine | dtype | logLevel => exact .inl ⟨_, rfl, rfl, rfl⟩
  | threads | seed | json | csv => exact .inr ⟨rfl, .inl rfl, rfl⟩

theorem merged_stands {file : List (String × Tree)} {environment : List (String × String)}
    (hfile : LayerSound file) (henvironment : LayerSound (environmentLayer environment)) :
    (merged file (environmentLayer environment)).Shaped ∧
      ∀ leaf : Leaf, Stands leaf ((merged file (environmentLayer environment)).leaf? leaf)
        ((leaf.inLayer? (environmentLayer environment)).or
          ((leaf.inLayer? file).or leaf.default)) := by
  have hempty : (Tree.table []).Shaped := nofun
  have hdefaults := layerSound_defaultLayer.fits.takes_overlay hempty
  have hoverDefaults := hfile.fits.takes_overlay hdefaults.shaped
  have hoverFile := henvironment.fits.takes_overlay hoverDefaults.shaped
  refine ⟨hoverFile.shaped, fun leaf => ?_⟩
  have hnone : (Tree.table []).leaf? leaf = none := by cases leaf <;> rfl
  have hoptional : leaf.isOptional = true → leaf.default = none := Option.isNone_iff_eq_none.mp
  have hleaf := hoverFile.leaf?_eq leaf fun _ => henvironment.isPlain
  rw [hoverDefaults.leaf?_eq leaf fun _ => hfile.isPlain,
    hdefaults.leaf?_eq leaf fun _ => layerSound_defaultLayer.isPlain, hnone] at hleaf
  rw [merged, hleaf]
  -- No variable is a null, so only nulls of the file have to stand over a default that is none.
  refine ((stands_default leaf).overlay hfile fun _ => hoptional).overlay henvironment ?_
  exact fun hnull => absurd rfl (ne_null_of_mem_environment hnull)

/-! ## The command line -/

theorem inRun?_ofSettings (leaf : Leaf) (settings : Settings) (script : String)
    (sizes : List UInt64) :
    leaf.inRun? settings (.ofSettings script settings sizes) = leaf.inSettings? settings := by
  cases leaf <;> rfl

theorem inRun?_apply (leaf : Leaf) (settings : Settings) (config : Config) (choice : Choice) :
    leaf.inRun? settings (choice.apply config) =
      (leaf.ofChoice? choice).or (leaf.inRun? settings config) := by
  cases leaf <;> cases choice <;> rfl

theorem inRun?_foldl_apply (leaf : Leaf) (settings : Settings) (config : Config)
    (choices : List Choice) :
    leaf.inRun? settings (choices.foldl Choice.apply config) =
      (leaf.inOptions? choices).or (leaf.inRun? settings config) :=
  get_foldl (inRun?_apply leaf settings) config choices

/-! ## All sources -/

structure Sources where
  readers : Readers := {}
  files : FileTree
  path : Option String
  environment : List (String × String)
  options : List String

/-- What each source says, and that it is well-formed. -/
structure Sources.Say (s : Sources) (file : List (String × Tree)) (choices : List Choice) :
    Prop where
  fileSays : Chosen s.readers s.files s.path file
  fileSound : LayerSound file
  environmentSound : LayerSound (environmentLayer s.environment)
  optionsSay : s.options.mapM Choice.parse = .ok choices

def Leaf.highest (leaf : Leaf) (choices : List Choice) (environment : List (String × String))
    (file : List (String × Tree)) : Option leaf.Value :=
  (leaf.inOptions? choices).or
    ((leaf.inLayer? (environmentLayer environment)).or ((leaf.inLayer? file).or leaf.default))

theorem Sources.Say.exists_run {s : Sources} {file : List (String × Tree)} {choices : List Choice}
    (h : s.Say file choices) (script : String) {defaultSizes : List UInt64}
    (hsizes : AreSizes defaultSizes) :
    ∃ settings config, load s.readers s.files s.path s.environment = .ok settings ∧
      Config.ofOptions script s.options settings defaultSizes = .ok config ∧
      ∀ leaf : Leaf, leaf.inRun? settings config = leaf.highest choices s.environment file := by
  obtain ⟨hshaped, hstands⟩ := merged_stands h.fileSound h.environmentSound
  obtain ⟨settings, hsettings, hleaves⟩ := exists_ofTree hshaped hstands
  refine ⟨settings, _, ?_, Config.ofOptions_eq_ok hsizes h.optionsSay, fun leaf => ?_⟩
  · rw [load, chosenFileLayer_eq_ok_iff.mpr h.fileSays]
    dsimp only
    rw [hsettings]
    rfl
  · rw [inRun?_foldl_apply, inRun?_ofSettings, hleaves, Leaf.highest]

end Settings

end DenseBench
