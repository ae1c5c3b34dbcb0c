import DenseBench.Proofs.Double.SingleOrder
import DenseBench.Proofs.Double.Sum
import DenseBench.Proofs.Random.Samples

/-!
# Samples as doubles

A sample is a natural below a power of two, scaled by that power: a product that is exact. A single
precision sample has no more than 24 bits, so that an array of single precision holds it as it is.
-/

namespace DenseBench.Double

open Decimal Float.Model Float.Model.UnpackedFloat

/-! ## Doubles that single precision holds -/

theorem natAbs_withSign (negative : Bool) (n : Nat) :
    (withSign negative (n : Int)).natAbs = n := by
  cases negative <;> simp [withSign]

theorem magnitude_of_parts {x : Float} {negative : Bool} {m : Nat} {e : Int}
    (h : parts x = .finite negative m e) : x.toBits.toNat % 2 ^ 63 = magnitudeBits m e := by
  have hrank : rank? x = some (withSign negative (magnitudeBits m e : Int)) := congrArg rankOf? h
  rw [rank?_eq] at hrank
  split at hrank
  · have heq := congrArg Int.natAbs (Option.some.inj hrank)
    rwa [natAbs_withSign, natAbs_withSign] at heq
  · cases hrank

theorem single_eq_self {x : Float}
    (h : singleMagnitude (x.toBits.toNat % 2 ^ 63) = x.toBits.toNat % 2 ^ 63) : single x = x := by
  by_cases hinfinite : infiniteBits ≤ x.toBits % signBit
  · exact single_of_infinite hinfinite
  · have hmod : (x.toBits % signBit).toNat = x.toBits.toNat % 2 ^ 63 := UInt64.toNat_mod ..
    have hlt : x.toBits.toNat % 2 ^ 63 < 2047 * 2 ^ 52 := by
      rw [UInt64.le_iff_toNat_le, hmod] at hinfinite
      exact Nat.not_le.mp hinfinite
    have hfixed : singleBits (x.toBits % signBit) = x.toBits % signBit := by
      rw [← UInt64.toNat_inj, toNat_singleBits (hmod ▸ hlt), hmod, h]
    rw [single_of_finite hinfinite, hfixed, UInt64.sub_add_cancel, Float.ofBits_toBits]

/-- A double of at most 24 bits in the normal range of single precision. -/
theorem single_of_parts {x : Float} {negative : Bool} {m : Nat} {e : Int}
    (h : parts x = .finite negative m e) (hcanonical : Canonical m e) (hdvd : 2 ^ 29 ∣ m)
    (hlow : -178 ≤ e) (hhigh : e ≤ 75) : single x = x := by
  have hnormal := hcanonical.normal.resolve_right (by omega)
  have hlt := hcanonical.lt
  have hsurplus : surplus (e + 1075).toNat = 29 := if_pos (by omega)
  have hsurplusless : Surplusless (magnitudeBits m e) (e + 1075).toNat m := by
    constructor
    · unfold magnitudeBits
      omega
    · omega
    · exact hnormal
    · exact hlt
    · rw [hsurplus]
      decide
    · rwa [hsurplus]
    · unfold magnitudeBits
      omega
  apply single_eq_self
  rw [magnitude_of_parts h, hsurplusless.singleMagnitude_eq]

/-! ## Scaling by a power of two -/

theorem unpack_ofNat {n m : Nat} {e : Int} (hcanonical : Canonical m e) (hvalue : value m e = n) :
    UnpackedFloat.ofNat Format.binary64 n = .finite .positive m e hcanonical.pos := by
  have hpos : 0 < n := by
    have := hcanonical.value_pos
    rw [hvalue] at this
    exact_mod_cast this
  change normalize Format.binary64 n 0 .positive = _
  rw [UnpackedFloat.normalize, compare_gt_iff_gt.mpr (Int.natCast_pos.mpr hpos)]
  exact hcanonical.round_eq .positive ((value_zero_exponent n).trans hvalue.symm)

theorem mul_power {m s : Nat} {e : Int} (hcanonical : Canonical m (e - s)) (hpos : 0 < m) :
    UnpackedFloat.mul Format.binary64 (.finite .positive m e hpos)
        (.finite .positive (2 ^ 52) (-52 - s) (Nat.two_pow_pos 52)) =
      .finite .positive m (e - s) hpos := by
  have hexp : e + (-52 - (s : Int)) = e - s - (52 : Nat) := by omega
  change roundWithAccuracy Format.binary64 .positive (m * 2 ^ 52) (e + (-52 - s)) .exact = _
  rw [hexp]
  exact hcanonical.roundWithAccuracy_eq .positive 52

theorem proper_ofNat {n : Nat} (h : n ≤ 2 ^ 53) :
    Proper (UnpackedFloat.ofNat Format.binary64 n) := by
  rcases Nat.eq_zero_or_pos n with rfl | hpos
  · trivial
  · obtain ⟨m, e, hcanonical, hvalue⟩ := exists_canonical hpos h
    rw [unpack_ofNat hcanonical hvalue]
    exact hcanonical

/-- The product of a natural and the unit `2^-s`: zero, or the natural's significand with an
exponent that is lower by `s`. -/
theorem scaled_cases {n s : Nat} {x unit : Float} (hn : n ≤ 2 ^ 53) (hs : s ≤ 53)
    (hx : x.toModel = .pack (UnpackedFloat.ofNat Format.binary64 n))
    (hunit : unit.toModel.unpack = .finite .positive (2 ^ 52) (-52 - s) (Nat.two_pow_pos 52)) :
    n = 0 ∧ x * unit = 0.0 ∨
      ∃ m e, Canonical m e ∧ value m e = n ∧ Canonical m (e - s) ∧
        parts (x * unit) = .finite false m (e - s) := by
  have hfactor : x.toModel.unpack = UnpackedFloat.ofNat Format.binary64 n := by
    rw [hx]
    exact unpack_pack (proper_ofNat hn)
  have hmul : x * unit = .ofModel (.pack (UnpackedFloat.mul Format.binary64 x.toModel.unpack
      unit.toModel.unpack)) := rfl
  rw [hfactor, hunit] at hmul
  rcases Nat.eq_zero_or_pos n with rfl | hpos
  · left
    have hzero : UnpackedFloat.mul Format.binary64 (UnpackedFloat.ofNat Format.binary64 0)
        (.finite .positive (2 ^ 52) (-52 - s) (Nat.two_pow_pos 52)) = .zero .positive := rfl
    rw [hmul, hzero]
    exact ⟨rfl, by decide +kernel⟩
  · right
    obtain ⟨m, e, hcanonical, hvalue⟩ := exists_canonical hpos hn
    obtain ⟨hlog, hexp⟩ := hcanonical.log2_eq hpos hvalue
    have hnormal : 2 ^ 52 ≤ m := (Nat.le_log2 hcanonical.pos.ne').mp hlog.ge
    have hhighest := hcanonical.highest
    have hscaled : Canonical m (e - s) :=
      ⟨hcanonical.pos, hcanonical.lt, by omega, by omega, .inl hnormal⟩
    have hunpacked : (x * unit).toModel.unpack = .finite .positive m (e - s) hscaled.pos := by
      rw [hmul, unpack_ofNat hcanonical hvalue, mul_power hscaled]
      exact unpack_pack_finite hscaled
    refine ⟨m, e, hcanonical, hvalue, hscaled, ?_⟩
    rw [parts_eq, hunpacked]
    rfl

/-! ## Samples -/

theorem unpack_unit24 :
    unit24.toModel.unpack = .finite .positive (2 ^ 52) (-52 - (24 : Nat)) (Nat.two_pow_pos 52) :=
  rfl

theorem toNat_shiftRight_eight_lt (w : UInt32) : (w >>> 8).toNat < 2 ^ 24 := by
  have := w.toNat_lt
  rw [UInt32.toNat_shiftRight]
  change w.toNat >>> 8 < 2 ^ 24
  rw [Nat.shiftRight_eq_div_pow]
  omega

/-- Single precision holds a sample that was made for it. -/
theorem single_unit32 (w : UInt32) : single (Scalar.unit32 w) = Scalar.unit32 w := by
  have hlt := toNat_shiftRight_eight_lt w
  have hsample : (Scalar.unit32 w : Float) = (w >>> 8).toFloat * unit24 := rfl
  rw [hsample]
  have hword : (w >>> 8).toFloat.toModel =
      .pack (UnpackedFloat.ofNat Format.binary64 (w >>> 8).toNat) := rfl
  rcases scaled_cases (by omega) (by decide) hword unpack_unit24 with
    ⟨-, hzero⟩ | ⟨m, e, hcanonical, hvalue, hscaled, hparts⟩
  · rw [hzero]
    decide +kernel
  · have hpos : 0 < (w >>> 8).toNat := by
      have := hcanonical.value_pos
      rw [hvalue] at this
      exact_mod_cast this
    obtain ⟨-, hlog⟩ := hcanonical.log2_eq hpos hvalue
    have hbits : (w >>> 8).toNat.log2 < 24 := (Nat.log2_lt hpos.ne').mpr hlt
    -- of the 53 bits of the significand a natural of 24 bits fills none of the last 29
    have hm := eq_mul_of_value_eq (hvalue.trans (value_zero_exponent _).symm) (by omega)
    have hdvd : 2 ^ 29 ∣ m := by
      rw [hm]
      exact Dvd.dvd.mul_left (Nat.pow_dvd_pow 2 (by omega)) _
    exact single_of_parts hparts hscaled hdvd (by omega) (by omega)

theorem coerce_sampleOf {t : ElementType} (h : t.isFloat = true) (words : Nat → UInt32) (i : Nat) :
    Scalar.coerce t (Random.sampleOf t words i) = (Random.sampleOf t words i : Float) := by
  cases t with
  | float32 => exact single_unit32 _
  | float64 => rfl
  | _ => cases h

theorem coerce_sample {t : ElementType} (h : t.isFloat = true) (seed : UInt64) (i : Nat) :
    Scalar.coerce t (Random.sample t seed i) = (Random.sample t seed i : Float) := by
  rw [Random.sample_eq_sampleOf]
  exact coerce_sampleOf h _ i

end DenseBench.Double
