import DenseBench.Proofs.Double.Word
import DenseBench.Proofs.Run.Precedence
import DenseBench.Proofs.Run.Seeds
import DenseBench.Proofs.Settings.Guess
import DenseBench.Proofs.Settings.Variable

/-!
# Seeds from the environment

The text of a variable is tried as a signed integer and then as a double, so a seed beyond the signed
range comes out of the environment rounded. The option for the seed gives every seed as it is, and
with it a run without a seed is repeated.
-/

namespace DenseBench.Settings

open Double Run Text

/-- The seed that a variable with the numeral of a seed gives. -/
def seedFromVariable (s : UInt64) : UInt64 :=
  if s.toNat < 2 ^ 63 then s
  else UInt64.ofNat (min (wordSignificand s.toNat * 2 ^ 11) Tree.greatestWord)

theorem toNat_seedFromVariable {s : UInt64} (h : ¬ s.toNat < 2 ^ 63) :
    (seedFromVariable s).toNat = min (wordSignificand s.toNat * 2 ^ 11) Tree.greatestWord := by
  rw [seedFromVariable, if_neg h]
  apply UInt64.toNat_ofNat_of_lt'
  have hword : Tree.greatestWord < UInt64.size := by decide
  exact Nat.lt_of_le_of_lt (Nat.min_le_right _ _) hword

theorem toWord_variableValue_numeralText (s : UInt64) :
    (variableValue (numeralText s.toNat)).toWord = .ok (seedFromVariable s) := by
  have hhigh : s.toNat < 2 ^ 64 := s.toNat_lt
  rw [seedFromVariable]
  split
  · rename_i hlow
    have hread : readInt64? (numeralText s.toNat).toList = some (s.toNat : Int) := by
      rw [toList_numeralText, readInt64?_numeral_of_lt hlow]
    rw [variableValue_of_readInt64? hread, Tree.toWord, if_pos (Int.natCast_nonneg _),
      Int.toNat_natCast, UInt64.ofNat_toNat]
  · rename_i hlow
    rw [Nat.not_lt] at hlow
    have hint : readInt64? (numeralText s.toNat).toList = none := by
      rw [toList_numeralText, readInt64?_numeral_of_le hlow]
    have hread : Decimal.readFloat? (numeralText s.toNat).toList =
        some (Decimal.nearest false s.toNat 0) := by
      rw [toList_numeralText, readFloat?_numeral]
    rw [variableValue_of_readFloat? hint hread, Tree.toWord, nearestWord_nearest hlow hhigh]

/-- Beyond the signed range only multiples of `2^11` and the greatest seed stay what they are. -/
theorem seedFromVariable_eq_self_iff (s : UInt64) :
    seedFromVariable s = s ↔
      s.toNat < 2 ^ 63 ∨ 2 ^ 11 ∣ s.toNat ∨ s.toNat = 2 ^ 64 - 1 := by
  by_cases hlow : s.toNat < 2 ^ 63
  · rw [seedFromVariable, if_pos hlow]
    exact ⟨fun _ => .inl hlow, fun _ => rfl⟩
  · have hhigh : s.toNat < 2 ^ 64 := s.toNat_lt
    have hgreatest : Tree.greatestWord = 2 ^ 64 - 1 := rfl
    rw [← UInt64.toNat_inj, toNat_seedFromVariable hlow, hgreatest]
    constructor
    · intro h
      rcases Nat.le_total (wordSignificand s.toNat * 2 ^ 11) (2 ^ 64 - 1) with hle | hle
      · rw [Nat.min_eq_left hle] at h
        exact .inr (.inl ⟨wordSignificand s.toNat, by omega⟩)
      · rw [Nat.min_eq_right hle] at h
        exact .inr (.inr h.symm)
    · rintro (h | ⟨k, hk⟩ | h)
      · exact absurd h hlow
      · have hsignificand : wordSignificand s.toNat = k := by
          rw [wordSignificand, hk, Nat.mul_comm, roundDiv_mul (Nat.two_pow_pos 11)]
        rw [hsignificand]
        omega
      · have hnearest := (roundDiv_nearest .even s.toNat (Nat.two_pow_pos 11)).2
        change _ ≤ 2 * (wordSignificand s.toNat * 2 ^ 11) + _ at hnearest
        omega

theorem seedFromVariable_near (s : UInt64) :
    (seedFromVariable s).toNat ≤ s.toNat + 2 ^ 10 ∧
      s.toNat ≤ (seedFromVariable s).toNat + 2 ^ 10 := by
  by_cases hlow : s.toNat < 2 ^ 63
  · rw [seedFromVariable, if_pos hlow]
    exact ⟨Nat.le_add_right _ _, Nat.le_add_right _ _⟩
  · have hhigh : s.toNat < 2 ^ 64 := s.toNat_lt
    have hgreatest : Tree.greatestWord = 2 ^ 64 - 1 := rfl
    have hnearest := roundDiv_nearest .even s.toNat (Nat.two_pow_pos 11)
    change 2 * (wordSignificand s.toNat * 2 ^ 11) ≤ _ ∧
      _ ≤ 2 * (wordSignificand s.toNat * 2 ^ 11) + _ at hnearest
    rw [toNat_seedFromVariable hlow, hgreatest]
    omega

/-! ## Settings with another seed -/

namespace DiffersAt

variable {value t t' : Tree} {s : UInt64} {settings : Settings}

theorem lookup_seed (h : DiffersAt .seed value t t') : t'.entries.lookup "seed" = some value :=
  h.leaf?_eq

theorem seed_of_reads (h : DiffersAt .seed value t t') (hne : value ≠ .null)
    (hvalue : value.toWord = .ok s) (hreads : Reads t' settings) : settings.seed = some s := by
  have hseed := hreads.seed
  rw [h.lookup_seed, toOptional_some hne hvalue] at hseed
  exact (Except.ok.inj hseed).symm

theorem reads_seed (h : DiffersAt .seed value t t') (hne : value ≠ .null)
    (hvalue : value.toWord = .ok s) (hreads : Reads t settings) :
    Reads t' { settings with seed := some s } where
  engine := (h.root "engine" (by decide)).symm ▸ hreads.engine
  dtype := (h.root "dtype" (by decide)).symm ▸ hreads.dtype
  threads := (h.root "threads" (by decide)).symm ▸ hreads.threads
  seed := by
    rw [h.lookup_seed]
    exact toOptional_some hne hvalue
  logLevel := (h.root "log_level" (by decide)).symm ▸ hreads.logLevel
  output := (h.root "output" (by decide)).symm ▸ hreads.output

end DiffersAt

/-! ## Seeds that are given again -/

theorem ofOptions_seed {script : String} {options : List String} {settings : Settings}
    {defaultSizes : List UInt64} {config : Config}
    (h : Config.ofOptions script options settings defaultSizes = .ok config) (s : UInt64) :
    Config.ofOptions script (options ++ [optionText "seed" (numeralText s.toNat)]) settings
      defaultSizes = .ok { config with seed := some s } := by
  have hread : Field.read .seed "seed" (numeralText s.toNat) = .ok s :=
    Choice.parseNumber_numeralText "seed" s
  have hchoice : Chooses (optionText "seed" (numeralText s.toNat)) (.seed s) :=
    .value .seed List.mem_cons_self hread
  obtain ⟨-, hsizes⟩ := Config.of_ofOptions h
  rw [Config.ofOptions_append h hchoice]
  exact Config.checked_eq_ok_iff.mpr ⟨rfl, hsizes⟩

theorem run_seed (w : Workload) {config : Config} (h : config.seed = none) (s fresh : UInt64)
    (pool : Nat → Schedule) (started stopped started' stopped' : Instant) :
    (w.run (α := Float) started stopped (.ofConfig config s pool)).1 =
      (w.run (α := Float) started' stopped'
        (.ofConfig { config with seed := some s } fresh pool)).1 := by
  have hseed : config.seed.getD s = (some s).getD fresh := by
    rw [h]
    rfl
  have halike : (Bench.ofConfig config s pool).Alike Float w config.sizes
      (.ofConfig { config with seed := some s } fresh pool) :=
    Bench.alike_ofConfig rfl rfl rfl hseed fun _ => .refl _
  exact (Workload.run_alike halike started stopped started' stopped').1

/-- A variable gives every seed of the signed range as it is, and beyond it a seed nearby. The option
gives every seed itself, and with the seed the run of a configuration without one. -/
theorem load_seedVariable (readers : Readers) (files : FileTree) (path : Option String)
    (before : List (String × String)) {after : List (String × String)}
    (hafter : ∀ v ∈ after, VariableSpares .seed v.1) (s : UInt64) :
    (∀ settings : Settings,
      load readers files path (before ++ ("ARRAYBENCH_SEED", numeralText s.toNat) :: after) =
        .ok settings →
      settings.seed = some (seedFromVariable s)) ∧
    (∀ settings : Settings, load readers files path (before ++ after) = .ok settings →
      load readers files path (before ++ ("ARRAYBENCH_SEED", numeralText s.toNat) :: after) =
        .ok { settings with seed := some (seedFromVariable s) }) ∧
    (seedFromVariable s = s ↔
      s.toNat < 2 ^ 63 ∨ 2 ^ 11 ∣ s.toNat ∨ s.toNat = 2 ^ 64 - 1) ∧
    ((seedFromVariable s).toNat ≤ s.toNat + 2 ^ 10 ∧
      s.toNat ≤ (seedFromVariable s).toNat + 2 ^ 10) ∧
    (∀ script options settings defaultSizes config,
      Config.ofOptions script options settings defaultSizes = .ok config →
      Config.ofOptions script (options ++ [optionText "seed" (numeralText s.toNat)]) settings
        defaultSizes = .ok { config with seed := some s }) ∧
    ∀ (w : Workload) (config : Config) (fresh : UInt64) (pool : Nat → Schedule)
      (started stopped started' stopped' : Instant), config.seed = none →
      (Bench.ofConfig config s pool).seed = s ∧
      (w.run (α := Float) started stopped (.ofConfig config s pool)).1 =
        (w.run (α := Float) started' stopped'
          (.ofConfig { config with seed := some s } fresh pool)).1 := by
  have hword := toWord_variableValue_numeralText s
  have hne := (variableValue_isPlain (numeralText s.toNat)).2
  have hdiffers := fun file => differsAt_merged hafter file before (numeralText s.toNat)
  refine ⟨?_, ?_, seedFromVariable_eq_self_iff s, seedFromVariable_near s,
    fun _ _ _ _ _ h => ofOptions_seed h s, ?_⟩
  · intro settings h
    obtain ⟨file, -, hreads⟩ := load_eq_ok_iff.mp h
    exact (hdiffers file).seed_of_reads hne hword hreads
  · intro settings h
    obtain ⟨file, hfile, hreads⟩ := load_eq_ok_iff.mp h
    exact load_eq_ok_iff.mpr ⟨file, hfile, (hdiffers file).reads_seed hne hword hreads⟩
  · intro w config fresh pool started stopped started' stopped' hseed
    refine ⟨?_, run_seed w hseed s fresh pool started stopped started' stopped'⟩
    rw [Bench.seed, Bench.ofConfig, hseed]
    rfl

theorem load_seedVariable_rounded :
    (∀ v ∈ [("ARRAYBENCH_DTYPE", "float32")], VariableSpares .seed v.1) ∧
      load {} {} none [("ARRAYBENCH_SEED", numeralText (9223372036854775809 : UInt64).toNat),
        ("ARRAYBENCH_DTYPE", "float32")] =
          .ok { dtype := .float32, seed := some 9223372036854775808 } := by
  have hspares : ∀ v ∈ [("ARRAYBENCH_DTYPE", "float32")], VariableSpares .seed v.1 := by
    intro v hv key hkey
    obtain rfl := List.mem_singleton.mp hv
    obtain rfl : "dtype" = key := Option.some.inj hkey
    exact .name (by decide)
  obtain ⟨-, hload, -⟩ := load_seedVariable {} {} none [] hspares 9223372036854775809
  have hseed : seedFromVariable 9223372036854775809 = 9223372036854775808 := by decide
  have hwithout : load {} {} none [("ARRAYBENCH_DTYPE", "float32")] = .ok { dtype := .float32 } := by
    decide +kernel
  refine ⟨hspares, (hload _ hwithout).trans ?_⟩
  rw [hseed]

/-- The option gives a seed that the variable does not. -/
theorem seedVariable_ne_option :
    load {} {} none [("ARRAYBENCH_SEED", "9223372036854775809")] =
        .ok { seed := some 9223372036854775808 } ∧
      Choice.parse "--seed=9223372036854775809" = .ok (.seed 9223372036854775809) := by
  decide +kernel

end DenseBench.Settings
