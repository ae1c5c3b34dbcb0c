import DenseBench.Proofs.Engine.Position

/-!
# Samples in the unit interval

The number of a sample is a binary fraction whose digits are the leading bits of its words. So it is
at least zero and less than one, even if all bits are ones, and the type of its array holds it as it
is. This is shown of arbitrary streams of words; random arrays are filled from those of the cipher.
-/

namespace DenseBench

/-- The words of the stream that starts from the double word `ahead` further draws lead to. -/
def Random.Source.words (source : Random.Source) (ahead : Nat) : Nat → UInt32 :=
  keyWord (keyOfSeed (source.peek ahead))

/-- The samples that a fill takes from streams of words, one stream for each double word it draws. -/
def EngineKind.fillOf {α : Type} [Scalar α] (kind : EngineKind) (t : ElementType)
    (streams : Nat → Nat → UInt32) (len : Nat) : Array α :=
  Array.ofFn fun i : Fin len => Random.sampleOf t (streams (kind.place i).1) (kind.place i).2

namespace Double

open Decimal Float.Model Float.Model.UnpackedFloat

/-! ## The number of a sample -/

theorem number?_scaled {n s : Nat} {x unit : Float} (hn : n ≤ 2 ^ 53) (hs : s ≤ 53)
    (hx : x.toModel = .pack (UnpackedFloat.ofNat Format.binary64 n))
    (hunit : unit.toModel.unpack = .finite .positive (2 ^ 52) (-52 - s) (Nat.two_pow_pos 52)) :
    number? (x * unit) = some ((n / 2 ^ s : ℚ) : Extended) := by
  obtain ⟨rfl, hzero⟩ | ⟨m, e, -, hvalue, -, hparts⟩ := scaled_cases hn hs hx hunit
  · rw [hzero, Nat.cast_zero, zero_div]
    exact number?_zero
  · have hshift : value m (e - s) = n / 2 ^ s := by
      rw [← hvalue, value, value, zpow_sub₀ two_ne_zero, zpow_natCast, mul_div_assoc]
    rw [number?_eq_parts, hparts, numberOfParts?, withSign_false, hshift]

theorem number?_unit32 (w : UInt32) :
    number? (Scalar.unit32 w) = some (((w >>> 8).toNat / 2 ^ 24 : ℚ) : Extended) :=
  number?_scaled ((toNat_shiftRight_eight_lt w).le.trans (by decide)) (by decide) rfl unpack_unit24

theorem unpack_unit53 :
    unit53.toModel.unpack = .finite .positive (2 ^ 52) (-52 - (53 : Nat)) (Nat.two_pow_pos 52) :=
  rfl

theorem toNat_shiftRight_eleven_lt (w : UInt64) : (w >>> 11).toNat < 2 ^ 53 := by
  have := w.toNat_lt
  rw [UInt64.toNat_shiftRight]
  change w.toNat >>> 11 < 2 ^ 53
  rw [Nat.shiftRight_eq_div_pow]
  omega

theorem number?_unit64 (w : UInt64) :
    number? (Scalar.unit64 w) = some (((w >>> 11).toNat / 2 ^ 53 : ℚ) : Extended) :=
  number?_scaled (toNat_shiftRight_eleven_lt w).le le_rfl rfl unpack_unit53

/-- The number of bits of its words that a sample shows. -/
def sampleBits : ElementType → Nat
  | .float32 => 24
  | _ => 53

/-- One of the binary fractions from zero to below one that have the places of the type. -/
def IsSample (t : ElementType) (x : Float) : Prop :=
  ∃ k : Nat, k < 2 ^ sampleBits t ∧ number? x = some ((k / 2 ^ sampleBits t : ℚ) : Extended)

theorem isSample_sampleOf (t : ElementType) (words : Nat → UInt32) (i : Nat) :
    IsSample t (Random.sampleOf t words i) := by
  cases t with
  | float32 => exact ⟨_, toNat_shiftRight_eight_lt _, number?_unit32 _⟩
  | _ => exact ⟨_, toNat_shiftRight_eleven_lt _, number?_unit64 _⟩

theorem IsSample.bounds {t : ElementType} {x : Float} (h : IsSample t x) : 0.0 ≤ x ∧ x < 1.0 := by
  obtain ⟨k, hlt, hnumber⟩ := h
  have hpow : (0 : ℚ) < 2 ^ sampleBits t := pow_pos two_pos _
  have hone : number? (1.0 : Float) = some ((1 : ℚ) : Extended) := by decide +kernel
  constructor
  · refine le_iff_number?.mpr ⟨_, _, number?_zero, hnumber, ?_⟩
    exact WithBotTop.coe_le_coe.mpr (div_nonneg (Nat.cast_nonneg k) hpow.le)
  · refine (less_iff hnumber hone).mpr (WithBotTop.coe_lt_coe.mpr ?_)
    rw [div_lt_one hpow]
    exact_mod_cast hlt

end Double

/-! ## Arrays of samples -/

namespace Engine

open NDArray Double

theorem ofData_fillOf {t : ElementType} (hfloat : t.isFloat = true) {shape : List Nat} {len : Nat}
    (hcount : elementCount shape = .ok len) (kind : EngineKind) (streams : Nat → Nat → UInt32) :
    ofData shape t (kind.fillOf t streams len) =
      .ok (⟨shape, t, kind.fillOf t streams len⟩ : NDArray Float) := by
  refine ofData_eq_ok_iff.mpr ⟨by rw [EngineKind.fillOf, Array.size_ofFn, hcount], ?_⟩
  congr 1
  apply Array.ext
  · simp
  · intro i hi hi'
    simp only [EngineKind.fillOf, Array.getElem_map, Array.getElem_ofFn]
    exact (coerce_sampleOf hfloat _ _).symm

theorem random_eq_fillOf (engine : Engine) {t : ElementType} (hfloat : t.isFloat = true)
    {shape : List Nat} {len : Nat} (hcount : elementCount shape = .ok len)
    (source : Random.Source) :
    engine.random shape t source =
      .ok ((⟨shape, t, engine.kind.fillOf t source.words len⟩ : NDArray Float),
        source.advance (engine.kind.draws len)) := by
  rw [random_eq_ofFn engine source hfloat hcount]
  simp only [EngineKind.sampleAt, Random.sample_eq_sampleOf]
  rfl

/-- Whatever words a fill takes its samples from, they are binary fractions in the unit interval
that the array stores as they are; and every random array is such a fill. -/
theorem random_in_unitInterval {t : ElementType} (hfloat : t.isFloat = true) {shape : List Nat}
    {len : Nat} (hcount : elementCount shape = .ok len) :
    (∀ (kind : EngineKind) (streams : Nat → Nat → UInt32),
      ofData shape t (kind.fillOf t streams len) =
          .ok (⟨shape, t, kind.fillOf t streams len⟩ : NDArray Float) ∧
        ∀ x ∈ (kind.fillOf t streams len : Array Float),
          IsSample t x ∧ 0.0 ≤ x ∧ x < 1.0 ∧ Scalar.coerce t x = x) ∧
      ∀ (engine : Engine) (source : Random.Source),
        engine.random shape t source =
          .ok ((⟨shape, t, engine.kind.fillOf t source.words len⟩ : NDArray Float),
            source.advance (engine.kind.draws len)) := by
  constructor
  · intro kind streams
    refine ⟨ofData_fillOf hfloat hcount kind streams, fun x hx => ?_⟩
    obtain ⟨i, rfl⟩ := Array.mem_ofFn.mp hx
    have hsample := isSample_sampleOf t (streams (kind.place i).1) (kind.place i).2
    obtain ⟨hzero, hone⟩ := hsample.bounds
    exact ⟨hsample, hzero, hone, coerce_sampleOf hfloat _ _⟩
  · exact fun engine source => random_eq_fillOf engine hfloat hcount source

/-- Words of ones alone give the greatest sample, `1 - 2^-24` at single precision. -/
theorem random_in_unitInterval_onlyOnes :
    ElementType.float32.isFloat = true ∧ elementCount [2] = .ok 2 ∧
      ofData [2] .float32 (EngineKind.parallel.fillOf .float32 (fun _ _ => 0xFFFFFFFF) 2) =
        .ok ⟨[2], .float32, Array.replicate 2 (Float.ofBits 0x3FEFFFFFE0000000)⟩ ∧
      Float.ofBits 0x3FEFFFFFE0000000 < 1.0 := by
  have hfloat : ElementType.float32.isFloat = true := rfl
  have hcount : elementCount [2] = .ok 2 := rfl
  obtain ⟨hfills, -⟩ := random_in_unitInterval hfloat hcount
  obtain ⟨hdata, hbounds⟩ := hfills .parallel fun _ _ => 0xFFFFFFFF
  have hfill : (EngineKind.parallel.fillOf .float32 (fun _ _ => 0xFFFFFFFF) 2 : Array Float) =
      Array.replicate 2 (Float.ofBits 0x3FEFFFFFE0000000) := by
    decide +kernel
  rw [hfill] at hdata hbounds
  refine ⟨hfloat, hcount, ?_, (hbounds _ (Array.mem_replicate.mpr ⟨by decide, rfl⟩)).2.2.1⟩
  rw [hfill]
  exact hdata

end Engine

end DenseBench
