import DenseBench.Proofs.Double.Bits

/-!
# Doubles nearest to naturals

A natural that has a canonical form is its own nearest double, and the parts of this double give the
natural back.
-/

namespace DenseBench.Double

open Decimal

def magnitudeBits (m : Nat) (e : Int) : Nat :=
  (e + 1074).toNat * 2 ^ 52 + m

theorem parts_ofParts {bits : Nat} (h : bits ≤ infinityBits) (negative : Bool) :
    parts (ofParts negative bits) = partsOfBits (bits + if negative then 2 ^ 63 else 0) := by
  have hbits : bits ≤ 2047 * 2 ^ 52 := h
  have hword : bits + (if negative then 2 ^ 63 else 0) < 2 ^ 64 := by
    split <;> omega
  have htoNat : (UInt64.ofNat (bits + if negative then 2 ^ 63 else 0)).toNat =
      bits + if negative then 2 ^ 63 else 0 := UInt64.toNat_ofNat_of_lt' hword
  have hmagnitude : (bits + if negative then 2 ^ 63 else 0) % 2 ^ 63 ≤ infinityBits := by
    change _ ≤ 2047 * 2 ^ 52
    split <;> omega
  rw [parts, ofParts, toBits_ofBits (by rwa [htoNat]), htoNat]

namespace Canonical

variable {m : Nat} {e : Int}

theorem magnitudeBits_lt (h : Canonical m e) : magnitudeBits m e < infinityBits := by
  have hlt := h.lt
  have hhighest := h.highest
  change (e + 1074).toNat * 2 ^ 52 + m < 2047 * 2 ^ 52
  omega

theorem partsOfBits_eq (h : Canonical m e) (negative : Bool) :
    partsOfBits (magnitudeBits m e + if negative then 2 ^ 63 else 0) = .finite negative m e := by
  have hpos := h.pos
  have hlt := h.lt
  have hlowest := h.lowest
  have hhighest := h.highest
  have hnormal := h.normal
  have hsign : ((magnitudeBits m e + if negative then 2 ^ 63 else 0) / 2 ^ 63 % 2 == 1) =
      negative := by
    have := h.magnitudeBits_lt
    change magnitudeBits m e < 2047 * 2 ^ 52 at this
    cases negative with
    | false =>
      rw [if_neg (by decide), beq_eq_false_iff_ne]
      omega
    | true =>
      rw [if_pos rfl, beq_iff_eq]
      omega
  have hexponent : (magnitudeBits m e + if negative then 2 ^ 63 else 0) / 2 ^ 52 % 2 ^ 11 =
      if m < 2 ^ 52 then 0 else (e + 1075).toNat := by
    unfold magnitudeBits
    split <;> split <;> omega
  have hfraction : (magnitudeBits m e + if negative then 2 ^ 63 else 0) % 2 ^ 52 =
      if m < 2 ^ 52 then m else m - 2 ^ 52 := by
    unfold magnitudeBits
    split <;> split <;> omega
  by_cases hm : m < 2 ^ 52
  · have he : lowestExponent = e := (hnormal.resolve_left (by omega)).symm
    rw [if_pos hm] at hexponent hfraction
    simp only [partsOfBits, hsign, hexponent, hfraction]
    rw [if_neg (by decide), if_pos trivial, he]
  · have hm' : 2 ^ 52 + (m - 2 ^ 52) = m := by omega
    have he : lowestExponent + (((e + 1075).toNat - 1 : Nat) : Int) = e := by
      unfold lowestExponent
      omega
    rw [if_neg hm] at hexponent hfraction
    simp only [partsOfBits, hsign, hexponent, hfraction]
    rw [if_neg (by omega), if_neg (by omega), hm', he]

theorem parts_eq (h : Canonical m e) (negative : Bool) :
    parts (ofParts negative (magnitudeBits m e)) = .finite negative m e := by
  rw [parts_ofParts h.magnitudeBits_lt.le, h.partsOfBits_eq]

end Canonical

theorem canonical_of_parts {x : Float} {negative : Bool} {m : Nat} {e : Int}
    (h : parts x = .finite negative m e) (hm : m ≠ 0) : Canonical m e := by
  have hfraction : x.toBits.toNat % 2 ^ 52 < 2 ^ 52 := Nat.mod_lt _ (by decide)
  have hexponent : x.toBits.toNat / 2 ^ 52 % 2 ^ 11 < 2 ^ 11 := Nat.mod_lt _ (by decide)
  unfold parts partsOfBits at h
  simp only at h
  split at h
  · split at h <;> cases h
  · split at h
    · cases h
      constructor
      · omega
      · omega
      · decide
      · decide
      · exact .inr rfl
    · cases h
      simp only [lowestExponent]
      constructor
      · omega
      · omega
      · omega
      · omega
      · exact .inl (by omega)

theorem Canonical.log2_eq {m n : Nat} {e : Int} (h : Canonical m e) (hn : 0 < n)
    (hvalue : value m e = n) : m.log2 = 52 ∧ (n.log2 : Int) = 52 + e := by
  have hlog := log2_add_eq_of_value_eq hn.ne' h.pos.ne'
    ((value_zero_exponent n).trans hvalue.symm)
  have hupper : m.log2 < 53 := (Nat.log2_lt h.pos.ne').mpr h.lt
  rcases h.normal with hnormal | hlowest
  · have := (Nat.le_log2 h.pos.ne').mpr hnormal
    omega
  · omega

theorem roundDiv_mul {tie : Tie} {m den : Nat} (hden : 0 < den) :
    roundDiv tie (m * den) den = m := by
  have hdiv : m * den / den = m := Nat.mul_div_cancel m hden
  have hmod : m * den % den = 0 := Nat.mul_mod_left m den
  simp [roundDiv, hdiv, hmod, hden]

theorem shiftedRatio_eq_of_value_eq {m n : Nat} {e : Int} (hvalue : value m e = n) :
    ∃ den, 0 < den ∧ shiftedRatio n 1 e = (m * den, den) := by
  have hvalue' : value n 0 = value m e := (value_zero_exponent n).trans hvalue.symm
  unfold shiftedRatio
  split
  · rename_i he
    refine ⟨2 ^ e.toNat, Nat.two_pow_pos _, ?_⟩
    rw [eq_mul_of_value_eq hvalue' he, Int.sub_zero, Nat.one_mul]
  · rename_i he
    refine ⟨1, Nat.one_pos, ?_⟩
    have hm := eq_mul_of_value_eq hvalue'.symm (by omega)
    rw [hm, Nat.mul_one]
    congr 3
    omega

/-- A natural in canonical form is the double nearest to it. -/
theorem Canonical.nearestBits_eq {m n : Nat} {e : Int} (h : Canonical m e) (hn : 0 < n)
    (hvalue : value m e = n) : nearestBits n 1 = magnitudeBits m e := by
  obtain ⟨hlogm, hlogn⟩ := h.log2_eq hn hvalue
  have hnormal : 2 ^ 52 ≤ m := (Nat.le_log2 h.pos.ne').mp hlogm.ge
  have hfirst : max ((n.log2 : Int) - ((1 : Nat).log2 : Nat) - 53) lowestExponent = e - 1 := by
    have hone : (1 : Nat).log2 = 0 := rfl
    rw [hone]
    unfold lowestExponent
    omega
  have hdouble : value (2 * m) (e - 1) = n := by
    rw [← hvalue, value, value, zpow_sub_one₀ (by norm_num)]
    push_cast
    ring
  obtain ⟨den, hden, hscaled⟩ := shiftedRatio_eq_of_value_eq hdouble
  obtain ⟨den', hden', hratio⟩ := shiftedRatio_eq_of_value_eq hvalue
  have hlarge : 2 ^ 53 ≤ 2 * m * den / den := by
    rw [Nat.mul_div_cancel _ hden]
    omega
  have hlt := h.magnitudeBits_lt
  have hbits : (e - lowestExponent).toNat * 2 ^ 52 + m = magnitudeBits m e := by
    unfold magnitudeBits lowestExponent
    omega
  simp only [nearestBits, if_neg hn.ne', hfirst, hscaled, if_pos hlarge, Int.sub_add_cancel, hratio,
    roundDiv_mul hden', if_neg (Nat.not_lt.mpr hnormal), hbits]
  exact Nat.min_eq_left hlt.le

end DenseBench.Double
