import DenseBench.Double
import DenseBench.Proofs.Double.Rounding

/-!
# Bits of doubles

A double is told by its sign, its exponent and its significand, and these by its bits. Taking the
bits apart and putting them together again gives back what there was, except that the bits of what
is not a number become those of one such value.
-/

namespace DenseBench.Double

open Float.Model Float.Model.UnpackedFloat

abbrev Word := BitVec Format.binary64.numBits

theorem toNat_unpackMantissa (v : Word) : (unpackMantissa v).toNat = v.toNat % 2 ^ 52 := by
  simp [unpackMantissa_def]

theorem toNat_unpackExponent (v : Word) :
    (unpackExponent v).toNat = v.toNat / 2 ^ 52 % 2 ^ 11 := by
  simp [unpackExponent_def, Nat.shiftRight_eq_div_pow]

/-- The exponent and the significand of a finite double, as its word keeps them. -/
theorem pack_finite {sign : Sign} {m : Nat} {e : Int} (h : Canonical m e) :
    UnpackedFloat.pack Format.binary64 (.finite sign m e h.pos) =
      packComponents Format.binary64 sign
        (BitVec.ofNat 11 (if m < 2 ^ 52 then 0 else (e + 1075).toNat)) (BitVec.ofNat 52 m) := by
  have hlowest := h.lowest
  have hhighest := h.highest
  have hbiased : (e + (1023 : Nat) + (52 : Nat)).toNat = (e + 1075).toNat := by omega
  have hfits : ¬ 2 ^ 11 ≤ (e + 1075).toNat + 1 := by omega
  change (if 2 ^ 11 ≤ (e + (1023 : Nat) + (52 : Nat)).toNat + 1 then _ else
    if m.log2 + 1 = 53 then
      packComponents Format.binary64 sign (BitVec.ofNat 11 (e + (1023 : Nat) + (52 : Nat)).toNat) _
    else packComponents Format.binary64 sign 0 _) = _
  rw [hbiased, if_neg hfits]
  by_cases hm : m < 2 ^ 52
  · have hlog : m.log2 < 52 := (Nat.log2_lt h.pos.ne').mpr hm
    rw [if_neg (by omega), if_pos hm]
    rfl
  · have hlog : m.log2 = 52 := (Nat.log2_eq_iff h.pos.ne').mpr ⟨by omega, h.lt⟩
    rw [if_pos (by omega), if_neg hm]

theorem toNat_one_append (m : BitVec 52) : (1#1 ++ m).toNat = 2 ^ 52 + m.toNat := by
  rw [BitVec.toNat_append, ← Nat.shiftLeft_add_eq_or_of_lt m.isLt]
  rfl

theorem ne_ofNat_of_toNat {exponent : BitVec 11} (field : Nat) (hfield : field < 2 ^ 11)
    (hne : exponent.toNat ≠ field) : exponent ≠ BitVec.ofNat 11 field := by
  rintro rfl
  exact hne (Nat.mod_eq_of_lt hfield)

/-- Below the normal range the exponent is the lowest, and its field is zero. -/
theorem unpack_pack_subnormal {sign : Sign} {m : Nat} {e : Int} (h : Canonical m e)
    (hm : m < 2 ^ 52) :
    UnpackedFloat.unpack Format.binary64
      (UnpackedFloat.pack Format.binary64 (.finite sign m e h.pos)) =
        .finite sign m e h.pos := by
  have hpos := h.pos
  have he : e = -1074 := h.normal.resolve_left (by omega)
  have hkept : (BitVec.ofNat 52 m).toNat = m := Nat.mod_eq_of_lt hm
  have hmantissa : BitVec.ofNat 52 m ≠ 0#52 := by
    intro hzero
    rw [hzero] at hkept
    change 0 = m at hkept
    omega
  rw [pack_finite h, if_pos hm]
  simp only [UnpackedFloat.unpack, unpackMantissa_packComponents, unpackExponent_packComponents,
    unpackSign_packComponents, Sign.ofBitVec_toBitVec]
  rw [if_neg (by decide), if_pos trivial, dif_neg hmantissa]
  congr 1
  rw [he]
  rfl

theorem unpack_pack_normal {sign : Sign} {m : Nat} {e : Int} (h : Canonical m e)
    (hm : 2 ^ 52 ≤ m) :
    UnpackedFloat.unpack Format.binary64
      (UnpackedFloat.pack Format.binary64 (.finite sign m e h.pos)) =
        .finite sign m e h.pos := by
  have hlt := h.lt
  have hlowest := h.lowest
  have hhighest := h.highest
  have hbiased : (BitVec.ofNat 11 (e + 1075).toNat).toNat = (e + 1075).toNat := by
    rw [BitVec.toNat_ofNat]
    omega
  have hinfinite : BitVec.ofNat 11 (e + 1075).toNat ≠ -1#11 :=
    ne_ofNat_of_toNat 2047 (by decide) (by omega)
  have hzero : BitVec.ofNat 11 (e + 1075).toNat ≠ 0#11 :=
    ne_ofNat_of_toNat 0 (by decide) (by omega)
  rw [pack_finite h, if_neg (Nat.not_lt.mpr hm)]
  simp only [UnpackedFloat.unpack, unpackMantissa_packComponents, unpackExponent_packComponents,
    unpackSign_packComponents, Sign.ofBitVec_toBitVec]
  rw [if_neg hinfinite, if_neg hzero]
  congr 1
  · rw [toNat_one_append, BitVec.toNat_ofNat]
    omega
  · rw [hbiased]
    change ((e + 1075).toNat : Int) - (1023 + 52) = e
    omega

theorem unpack_pack_finite {sign : Sign} {m : Nat} {e : Int} (h : Canonical m e) :
    UnpackedFloat.unpack Format.binary64
      (UnpackedFloat.pack Format.binary64 (.finite sign m e h.pos)) =
        .finite sign m e h.pos := by
  rcases Nat.lt_or_ge m (2 ^ 52) with hm | hm
  · exact unpack_pack_subnormal h hm
  · exact unpack_pack_normal h hm

theorem pack_unpack_word {v : Word} (h : v.toNat % 2 ^ 63 ≤ Decimal.infinityBits) :
    UnpackedFloat.pack Format.binary64 (UnpackedFloat.unpack Format.binary64 v) = v := by
  have hnumber : ¬ isNaNBits v = true := by
    simp only [isNaNBits, decide_eq_true_eq, not_and, not_not]
    intro hexponent
    apply BitVec.eq_of_toNat_eq
    have hfull := congrArg BitVec.toNat hexponent
    rw [toNat_unpackExponent] at hfull
    rw [toNat_unpackMantissa]
    change v.toNat / 2 ^ 52 % 2 ^ 11 = 2047 at hfull
    change v.toNat % 2 ^ 52 = 0
    change v.toNat % 2 ^ 63 ≤ 2047 * 2 ^ 52 at h
    omega
  rw [pack_unpack v, if_neg hnumber]

/-- Bits come back as they are unless they stand for what is not a number. -/
theorem toBits_ofBits {bits : UInt64} (h : bits.toNat % 2 ^ 63 ≤ Decimal.infinityBits) :
    (Float.ofBits bits).toBits = bits := by
  change UInt64.ofBitVec (UnpackedFloat.pack Format.binary64 _) = bits
  rw [pack_unpack_word h]

end DenseBench.Double
