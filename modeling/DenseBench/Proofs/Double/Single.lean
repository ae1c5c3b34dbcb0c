import DenseBench.Proofs.Double.Bits

/-!
# Single precision within double precision

Rounding to single precision, told on natural numbers: a significand loses its surplus bits by going
to a neighbouring multiple of a power of two, and multiples stay as they are. So what has been
rounded once is not changed by being rounded again.
-/

namespace DenseBench.Double

/-! ## Dropping bits -/

/-- The multiple of `2^s` nearest to a significand, a half to the even one. -/
def dropped (significand s : Nat) : Nat :=
  if 2 * (significand % 2 ^ s) < 2 ^ s ∨
      2 * (significand % 2 ^ s) = 2 ^ s ∧ significand / 2 ^ s % 2 = 0 then
    significand / 2 ^ s * 2 ^ s
  else (significand / 2 ^ s + 1) * 2 ^ s

theorem dvd_dropped (significand s : Nat) : 2 ^ s ∣ dropped significand s := by
  unfold dropped
  split
  · exact Nat.dvd_mul_left _ _
  · exact Nat.dvd_mul_left _ _

theorem dropped_eq_self {significand s : Nat} (h : 2 ^ s ∣ significand) :
    dropped significand s = significand := by
  have hrest : significand % 2 ^ s = 0 := Nat.mod_eq_zero_of_dvd h
  rw [dropped, hrest, if_pos (.inl (Nat.two_pow_pos s)), Nat.div_mul_cancel h]

theorem le_dropped {significand s b : Nat} (hb : 2 ^ s ∣ b) (hle : b ≤ significand) :
    b ≤ dropped significand s := by
  have hquotient : b ≤ significand / 2 ^ s * 2 ^ s := by
    obtain ⟨q, rfl⟩ := hb
    rw [Nat.mul_comm] at hle ⊢
    exact Nat.mul_le_mul_right _ ((Nat.le_div_iff_mul_le (Nat.two_pow_pos s)).mpr hle)
  unfold dropped
  split
  · exact hquotient
  · exact hquotient.trans (Nat.mul_le_mul_right _ (Nat.le_succ _))

theorem dropped_le {significand s c : Nat} (hc : 2 ^ s ∣ c) (hle : significand ≤ c) :
    dropped significand s ≤ c := by
  have hsplit := Nat.div_add_mod' significand (2 ^ s)
  obtain ⟨q, rfl⟩ := hc
  unfold dropped
  split
  · exact (Nat.div_mul_le_self _ _).trans hle
  · rename_i hup
    have hpow := Nat.two_pow_pos s
    have hrest : 0 < significand % 2 ^ s := by omega
    have hlt : significand / 2 ^ s * 2 ^ s < q * 2 ^ s := by
      rw [Nat.mul_comm q]
      omega
    have hquotient : significand / 2 ^ s < q := Nat.lt_of_mul_lt_mul_right hlt
    rw [Nat.mul_comm (2 ^ s)]
    exact Nat.mul_le_mul_right _ hquotient

theorem toNat_one_shiftLeft {s : UInt64} (hle : s.toNat ≤ 53) :
    ((1 : UInt64) <<< s).toNat = 2 ^ s.toNat := by
  have hpow : 2 ^ s.toNat < 2 ^ 64 := Nat.pow_lt_pow_right (by decide) (by omega)
  rw [UInt64.toNat_shiftLeft, Nat.mod_eq_of_lt (by omega : s.toNat < 64), Nat.shiftLeft_eq]
  simpa using Nat.mod_eq_of_lt hpow

/-- The test of a word on its rest and its quotient is the test on naturals. -/
theorem dropBits_test {significand unit : UInt64} {s : Nat} (hunit : unit.toNat = 2 ^ s)
    (hlt : significand.toNat < 2 ^ 53) :
    (significand % unit + significand % unit < unit ||
      (significand % unit + significand % unit == unit && significand / unit % 2 == 0)) = true ↔
        2 * (significand.toNat % 2 ^ s) < 2 ^ s ∨
          2 * (significand.toNat % 2 ^ s) = 2 ^ s ∧ significand.toNat / 2 ^ s % 2 = 0 := by
  have hrest : significand.toNat % 2 ^ s ≤ significand.toNat := Nat.mod_le _ _
  have hdouble : (significand % unit + significand % unit).toNat =
      2 * (significand.toNat % 2 ^ s) := by
    rw [UInt64.toNat_add, UInt64.toNat_mod, hunit]
    omega
  have hparity : (significand / unit % 2).toNat = significand.toNat / 2 ^ s % 2 := by
    rw [UInt64.toNat_mod, UInt64.toNat_div, hunit]
    rfl
  rw [Bool.or_eq_true, Bool.and_eq_true, decide_eq_true_eq, beq_iff_eq, beq_iff_eq,
    UInt64.lt_iff_toNat_lt, ← UInt64.toNat_inj, ← UInt64.toNat_inj, hdouble, hparity, hunit]
  rfl

theorem toNat_dropBits {significand surplus : UInt64} (hlt : significand.toNat < 2 ^ 53)
    (hle : surplus.toNat ≤ 53) :
    (dropBits significand surplus).toNat = dropped significand.toNat surplus.toNat := by
  have hunit := toNat_one_shiftLeft hle
  have hpow : 2 ^ surplus.toNat ≤ 2 ^ 53 := Nat.pow_le_pow_right (by decide) hle
  have hmul := Nat.div_mul_le_self significand.toNat (2 ^ surplus.toNat)
  have hquotient := Nat.div_le_self significand.toNat (2 ^ surplus.toNat)
  generalize hu : (1 : UInt64) <<< surplus = unit at hunit
  have hkept : (significand / unit).toNat = significand.toNat / 2 ^ surplus.toNat := by
    rw [UInt64.toNat_div, hunit]
  have hdown : (significand / unit * unit).toNat =
      significand.toNat / 2 ^ surplus.toNat * 2 ^ surplus.toNat := by
    rw [UInt64.toNat_mul, hkept, hunit]
    omega
  have hup : ((significand / unit + 1) * unit).toNat =
      (significand.toNat / 2 ^ surplus.toNat + 1) * 2 ^ surplus.toNat := by
    have hsum : (significand / unit + 1).toNat = significand.toNat / 2 ^ surplus.toNat + 1 := by
      rw [UInt64.toNat_add, hkept]
      change (_ + 1) % 2 ^ 64 = _
      omega
    rw [UInt64.toNat_mul, hsum, hunit, Nat.add_mul, Nat.one_mul]
    omega
  simp only [dropBits, hu, dropped, dropBits_test hunit hlt]
  split
  · exact hdown
  · exact hup

/-! ## Rounding a magnitude -/

/-- The surplus bits of a significand, by the exponent that its bits show. -/
def surplus (exponent : Nat) : Nat :=
  if 897 ≤ exponent then 29 else 926 - exponent

/-- The rounding of a magnitude, on naturals. -/
def singleMagnitude (magnitude : Nat) : Nat :=
  if 53 < surplus (magnitude / 2 ^ 52) then 0
  else
    let significand := dropped (2 ^ 52 + magnitude % 2 ^ 52) (surplus (magnitude / 2 ^ 52))
    if significand = 0 then 0
    else
      let bits := (magnitude / 2 ^ 52 - 1) * 2 ^ 52 + significand
      if 1151 * 2 ^ 52 ≤ bits then 2047 * 2 ^ 52 else bits

theorem toNat_surplusBits {exponent : UInt64} (hle : exponent.toNat < 2 ^ 11) :
    (surplusBits exponent).toNat = surplus exponent.toNat := by
  have hcompare : 897 ≤ exponent ↔ 897 ≤ exponent.toNat := UInt64.le_iff_toNat_le
  unfold surplusBits surplus
  by_cases h : 897 ≤ exponent.toNat
  · rw [if_pos (hcompare.mpr h), if_pos h]
    rfl
  · rw [if_neg (fun h' => h (hcompare.mp h')), if_neg h, UInt64.toNat_sub]
    change (2 ^ 64 - exponent.toNat + 926) % 2 ^ 64 = _
    omega

theorem dropped_le_two_pow {rest s : Nat} (hrest : rest < 2 ^ 52) (hs : s ≤ 53) :
    dropped (2 ^ 52 + rest) s ≤ 2 ^ 53 :=
  dropped_le (Nat.pow_dvd_pow 2 hs) (by omega)

theorem pos_of_surplus_le {exponent : Nat} (h : surplus exponent ≤ 53) : 0 < exponent := by
  unfold surplus at h
  split at h <;> omega

/-- The word of an exponent and a significand, which may be the next power of two. -/
theorem toNat_exponent_word {exponent significand : UInt64} (hpos : 0 < exponent.toNat)
    (hlt : exponent.toNat < 2 ^ 11) (hle : significand.toNat ≤ 2 ^ 53) :
    ((exponent - 1) * leadingBit + significand).toNat =
      (exponent.toNat - 1) * 2 ^ 52 + significand.toNat := by
  have hone : (1 : UInt64) ≤ exponent := UInt64.le_iff_toNat_le.mpr hpos
  rw [UInt64.toNat_add, UInt64.toNat_mul, UInt64.toNat_sub_of_le _ _ hone]
  change ((exponent.toNat - 1) * 2 ^ 52 % 2 ^ 64 + significand.toNat) % 2 ^ 64 = _
  omega

theorem toNat_singleBits {magnitude : UInt64} (h : magnitude.toNat < 2047 * 2 ^ 52) :
    (singleBits magnitude).toNat = singleMagnitude magnitude.toNat := by
  have hexponent : (magnitude / leadingBit).toNat = magnitude.toNat / 2 ^ 52 := by
    rw [UInt64.toNat_div]
    rfl
  have hsurplus : (surplusBits (magnitude / leadingBit)).toNat =
      surplus (magnitude.toNat / 2 ^ 52) := by
    rw [toNat_surplusBits (by omega), hexponent]
  have hsignificand : (leadingBit + magnitude % leadingBit).toNat =
      2 ^ 52 + magnitude.toNat % 2 ^ 52 := by
    rw [UInt64.toNat_add, UInt64.toNat_mod]
    change (2 ^ 52 + magnitude.toNat % 2 ^ 52) % 2 ^ 64 = _
    omega
  have htiny : 53 < surplusBits (magnitude / leadingBit) ↔
      53 < surplus (magnitude.toNat / 2 ^ 52) := by
    rw [UInt64.lt_iff_toNat_lt, hsurplus]
    rfl
  simp only [singleBits, singleMagnitude, htiny]
  split
  · rfl
  · rename_i hnot
    have hle : surplus (magnitude.toNat / 2 ^ 52) ≤ 53 := Nat.not_lt.mp hnot
    have hdropped : (dropBits (leadingBit + magnitude % leadingBit)
        (surplusBits (magnitude / leadingBit))).toNat =
          dropped (2 ^ 52 + magnitude.toNat % 2 ^ 52) (surplus (magnitude.toNat / 2 ^ 52)) := by
      rw [toNat_dropBits (by omega) (by omega), hsignificand, hsurplus]
    have hdroppedLe := dropped_le_two_pow (Nat.mod_lt magnitude.toNat (by decide)) hle
    rw [← hdropped] at hdroppedLe ⊢
    generalize dropBits (leadingBit + magnitude % leadingBit)
      (surplusBits (magnitude / leadingBit)) = significand at hdroppedLe ⊢
    have hbits : ((magnitude / leadingBit - 1) * leadingBit + significand).toNat =
        (magnitude.toNat / 2 ^ 52 - 1) * 2 ^ 52 + significand.toNat := by
      rw [toNat_exponent_word (by rw [hexponent]; exact pos_of_surplus_le hle) (by omega)
        hdroppedLe, hexponent]
    have hzero : (significand == 0) = true ↔ significand.toNat = 0 := by
      rw [beq_iff_eq, ← UInt64.toNat_inj]
      rfl
    have hlimit : singleLimit ≤ (magnitude / leadingBit - 1) * leadingBit + significand ↔
        1151 * 2 ^ 52 ≤ (magnitude.toNat / 2 ^ 52 - 1) * 2 ^ 52 + significand.toNat := by
      rw [UInt64.le_iff_toNat_le, hbits]
      rfl
    simp only [hzero, hlimit]
    split
    · rfl
    · split
      · rfl
      · exact hbits

/-- Magnitudes of finite numbers whose significands have no surplus bits. -/
structure Surplusless (magnitude exponent significand : Nat) : Prop where
  eq : magnitude = (exponent - 1) * 2 ^ 52 + significand
  pos : 0 < exponent
  lower : 2 ^ 52 ≤ significand
  upper : significand < 2 ^ 53
  surplus_le : surplus exponent ≤ 53
  dvd : 2 ^ surplus exponent ∣ significand
  limit : magnitude < 1151 * 2 ^ 52

theorem Surplusless.singleMagnitude_eq {magnitude exponent significand : Nat}
    (h : Surplusless magnitude exponent significand) : singleMagnitude magnitude = magnitude := by
  obtain ⟨heq, hpos, hlower, hupper, hsurplus, hdvd, hlimit⟩ := h
  have hexponent : magnitude / 2 ^ 52 = exponent := by omega
  have hsignificand : 2 ^ 52 + magnitude % 2 ^ 52 = significand := by omega
  simp only [singleMagnitude, hexponent, hsignificand, dropped_eq_self hdvd]
  rw [if_neg (by omega), if_neg (by omega), if_neg (by omega)]
  exact heq.symm

/-- A significand that goes up to the next power of two gives its place to the next exponent. -/
theorem exists_surplusless {exponent significand magnitude : Nat}
    (hsurplus : surplus exponent ≤ 53) (hdvd : 2 ^ surplus exponent ∣ significand)
    (hlower : 2 ^ 52 ≤ significand) (hupper : significand ≤ 2 ^ 53)
    (heq : magnitude = (exponent - 1) * 2 ^ 52 + significand) (hlimit : magnitude < 1151 * 2 ^ 52) :
    ∃ exponent significand, Surplusless magnitude exponent significand := by
  have hpos : 0 < exponent := pos_of_surplus_le hsurplus
  rcases hupper.lt_or_eq with hlt | rfl
  · exact ⟨exponent, significand, heq, hpos, hlower, hlt, hsurplus, hdvd, hlimit⟩
  · have hnext : surplus (exponent + 1) ≤ 52 := by
      unfold surplus at hsurplus ⊢
      split at hsurplus <;> split <;> omega
    have hcarried : magnitude = (exponent + 1 - 1) * 2 ^ 52 + 2 ^ 52 := by
      obtain ⟨k, rfl⟩ : ∃ k, exponent = k + 1 := ⟨exponent - 1, by omega⟩
      rw [heq, Nat.add_sub_cancel, Nat.add_sub_cancel]
      ring
    have hupper' : 2 ^ 52 < 2 ^ 53 := Nat.pow_lt_pow_right (by decide) (by decide)
    exact ⟨exponent + 1, 2 ^ 52, hcarried, Nat.succ_pos _, Nat.le_refl _, hupper',
      Nat.le_succ_of_le hnext, Nat.pow_dvd_pow 2 hnext, hlimit⟩

/-- What a magnitude is rounded to. -/
theorem singleMagnitude_cases (magnitude : Nat) :
    singleMagnitude magnitude = 0 ∨ singleMagnitude magnitude = 2047 * 2 ^ 52 ∨
      ∃ exponent significand, Surplusless (singleMagnitude magnitude) exponent significand := by
  have hrest : magnitude % 2 ^ 52 < 2 ^ 52 := Nat.mod_lt _ (by decide)
  by_cases htiny : 53 < surplus (magnitude / 2 ^ 52)
  · exact .inl (if_pos htiny)
  · have hsurplus : surplus (magnitude / 2 ^ 52) ≤ 53 := Nat.not_lt.mp htiny
    unfold singleMagnitude
    rw [if_neg htiny]
    have hdvd := dvd_dropped (2 ^ 52 + magnitude % 2 ^ 52) (surplus (magnitude / 2 ^ 52))
    have hupper := dropped_le_two_pow hrest hsurplus
    have hlower : surplus (magnitude / 2 ^ 52) ≤ 52 →
        2 ^ 52 ≤ dropped (2 ^ 52 + magnitude % 2 ^ 52) (surplus (magnitude / 2 ^ 52)) :=
      fun hle => le_dropped (Nat.pow_dvd_pow 2 hle) (by omega)
    generalize dropped (2 ^ 52 + magnitude % 2 ^ 52) (surplus (magnitude / 2 ^ 52)) =
      significand at hdvd hupper hlower ⊢
    dsimp only
    split
    · exact .inl rfl
    · rename_i hne
      have hlower' : 2 ^ 52 ≤ significand := by
        rcases hsurplus.lt_or_eq with hlt | heq
        · exact hlower (Nat.le_of_lt_succ hlt)
        · rw [heq] at hdvd
          have := Nat.le_of_dvd (Nat.pos_of_ne_zero hne) hdvd
          omega
      generalize hbits : (magnitude / 2 ^ 52 - 1) * 2 ^ 52 + significand = bits
      split
      · exact .inr (.inl rfl)
      · rename_i hlimit
        have hlt := Nat.not_le.mp hlimit
        exact .inr (.inr (exists_surplusless hsurplus hdvd hlower' hupper hbits.symm hlt))

theorem singleMagnitude_idem {magnitude : Nat}
    (hfinite : singleMagnitude magnitude ≠ 2047 * 2 ^ 52) :
    singleMagnitude (singleMagnitude magnitude) = singleMagnitude magnitude := by
  rcases singleMagnitude_cases magnitude with hzero | hinfinite | ⟨_, _, hsurplusless⟩
  · rw [hzero]
    decide
  · exact absurd hinfinite hfinite
  · exact hsurplusless.singleMagnitude_eq

/-! ## Rounding a double -/

theorem single_of_infinite {x : Float} (h : infiniteBits ≤ x.toBits % signBit) : single x = x :=
  if_pos h

theorem single_of_finite {x : Float} (h : ¬ infiniteBits ≤ x.toBits % signBit) :
    single x =
      Float.ofBits (x.toBits - x.toBits % signBit + singleBits (x.toBits % signBit)) :=
  if_neg h

/-- The word of a rounded double: the sign it had, and the rounded magnitude. -/
theorem toNat_single_word (bits : UInt64) {magnitude : UInt64} (h : magnitude.toNat < 2 ^ 63) :
    (bits - bits % signBit + magnitude).toNat = bits.toNat / 2 ^ 63 * 2 ^ 63 + magnitude.toNat := by
  have hle : bits % signBit ≤ bits := by
    rw [UInt64.le_iff_toNat_le, UInt64.toNat_mod]
    exact Nat.mod_le _ _
  have hlt := bits.toNat_lt
  rw [UInt64.toNat_add, UInt64.toNat_sub_of_le _ _ hle, UInt64.toNat_mod]
  change (bits.toNat - bits.toNat % 2 ^ 63 + magnitude.toNat) % 2 ^ 64 = _
  omega

theorem singleMagnitude_le (magnitude : Nat) : singleMagnitude magnitude ≤ 2047 * 2 ^ 52 := by
  rcases singleMagnitude_cases magnitude with hzero | hinfinite | ⟨_, _, hsurplusless⟩
  · rw [hzero]
    exact Nat.zero_le _
  · exact hinfinite.le
  · have := hsurplusless.limit
    omega

theorem single_ofBits {bits magnitude : UInt64} {m : Nat}
    (hmagnitude : magnitude.toNat = singleMagnitude m) :
    single (Float.ofBits (bits - bits % signBit + magnitude)) =
      Float.ofBits (bits - bits % signBit + magnitude) := by
  have hle := singleMagnitude_le m
  rw [← hmagnitude] at hle
  have hword := toNat_single_word bits (by omega : magnitude.toNat < 2 ^ 63)
  generalize bits - bits % signBit + magnitude = word at hword ⊢
  have hkept : (Float.ofBits word).toBits = word := by
    apply toBits_ofBits
    change word.toNat % 2 ^ 63 ≤ 2047 * 2 ^ 52
    omega
  have hmod : word % signBit = magnitude := by
    rw [← UInt64.toNat_inj, UInt64.toNat_mod]
    change word.toNat % 2 ^ 63 = magnitude.toNat
    omega
  by_cases hfull : magnitude.toNat = 2047 * 2 ^ 52
  · apply single_of_infinite
    rw [hkept, hmod, UInt64.le_iff_toNat_le]
    exact hfull.ge
  · have hfinite : ¬ infiniteBits ≤ (Float.ofBits word).toBits % signBit := by
      rw [hkept, hmod, UInt64.le_iff_toNat_le]
      change ¬ 2047 * 2 ^ 52 ≤ magnitude.toNat
      omega
    have hfixed : singleBits magnitude = magnitude := by
      rw [← UInt64.toNat_inj, toNat_singleBits (by omega), hmagnitude,
        singleMagnitude_idem (hmagnitude ▸ hfull)]
    rw [single_of_finite hfinite, hkept, hmod, hfixed, UInt64.sub_add_cancel]

/-- Rounding to single precision a second time changes nothing. -/
theorem single_single (x : Float) : single (single x) = single x := by
  by_cases hinfinite : infiniteBits ≤ x.toBits % signBit
  · rw [single_of_infinite hinfinite, single_of_infinite hinfinite]
  · have hmagnitude : (x.toBits % signBit).toNat < 2047 * 2 ^ 52 := by
      rw [UInt64.le_iff_toNat_le] at hinfinite
      exact Nat.not_le.mp hinfinite
    rw [single_of_finite hinfinite, single_ofBits (toNat_singleBits hmagnitude)]

end DenseBench.Double
