import DenseBench.Proofs.Double.Order
import DenseBench.Proofs.Double.Single

/-!
# Single precision keeps the order

On the words of magnitudes the rounding to single precision is monotone: between two exponents it
cannot pass the power of two that separates them, and at one exponent a greater significand goes to
a multiple that is no smaller. Ranks of doubles are rounded as their magnitudes are.
-/

namespace DenseBench.Double

open Decimal

/-! ## Magnitudes -/

theorem dropped_mono {m n : Nat} (s : Nat) (h : m ≤ n) : dropped m s ≤ dropped n s := by
  have hpow := Nat.two_pow_pos s
  have hm := Nat.div_add_mod' m (2 ^ s)
  have hn := Nat.div_add_mod' n (2 ^ s)
  rcases (Nat.div_le_div_right h : m / 2 ^ s ≤ n / 2 ^ s).lt_or_eq with hlt | heq
  · -- the multiple at the quotient of the greater lies between
    have hupper : (m / 2 ^ s + 1) * 2 ^ s ≤ n / 2 ^ s * 2 ^ s := Nat.mul_le_mul_right _ hlt
    rw [Nat.add_mul, Nat.one_mul] at hupper
    have hrest : m % 2 ^ s < 2 ^ s := Nat.mod_lt m hpow
    exact (dropped_le (Nat.dvd_mul_left ..) (by omega : m ≤ n / 2 ^ s * 2 ^ s)).trans
      (le_dropped (Nat.dvd_mul_left ..) (Nat.div_mul_le_self n _))
  · have hrest : m % 2 ^ s ≤ n % 2 ^ s := by
      rw [heq] at hm
      omega
    have hstep : n / 2 ^ s * 2 ^ s ≤ (n / 2 ^ s + 1) * 2 ^ s :=
      Nat.mul_le_mul_right _ (Nat.le_succ _)
    unfold dropped
    rw [heq]
    split
    · split
      · exact Nat.le_refl _
      · exact hstep
    · split
      · omega
      · exact Nat.le_refl _

/-- Magnitudes beyond the range of single precision become infinite. -/
def capped (bits : Nat) : Nat :=
  if 1151 * 2 ^ 52 ≤ bits then 2047 * 2 ^ 52 else bits

theorem capped_mono {m n : Nat} (h : m ≤ n) : capped m ≤ capped n := by
  unfold capped
  split <;> split <;> omega

theorem singleMagnitude_of_tiny {magnitude : Nat} (h : 53 < surplus (magnitude / 2 ^ 52)) :
    singleMagnitude magnitude = 0 :=
  if_pos h

theorem singleMagnitude_of_surplus_le {magnitude : Nat}
    (h : surplus (magnitude / 2 ^ 52) ≤ 53) :
    singleMagnitude magnitude =
      let significand := dropped (2 ^ 52 + magnitude % 2 ^ 52) (surplus (magnitude / 2 ^ 52))
      if significand = 0 then 0 else capped ((magnitude / 2 ^ 52 - 1) * 2 ^ 52 + significand) :=
  if_neg (Nat.not_lt.mpr h)

theorem surplus_lt_of_lt {exponent exponent' : Nat} (hlt : exponent < exponent')
    (h : 53 ≤ surplus exponent') : 53 < surplus exponent := by
  unfold surplus at h ⊢
  split at h <;> split <;> omega

theorem singleMagnitude_le_capped (magnitude : Nat) :
    singleMagnitude magnitude ≤ capped ((magnitude / 2 ^ 52 + 1) * 2 ^ 52) := by
  rcases Nat.lt_or_ge 53 (surplus (magnitude / 2 ^ 52)) with htiny | hsurplus
  · rw [singleMagnitude_of_tiny htiny]
    exact Nat.zero_le _
  · have hpos := pos_of_surplus_le hsurplus
    have hupper := dropped_le_two_pow (Nat.mod_lt magnitude (by decide)) hsurplus
    rw [singleMagnitude_of_surplus_le hsurplus]
    dsimp only
    split
    · exact Nat.zero_le _
    · exact capped_mono (by omega)

theorem capped_le_singleMagnitude {magnitude : Nat} (h : surplus (magnitude / 2 ^ 52) ≤ 52) :
    capped (magnitude / 2 ^ 52 * 2 ^ 52) ≤ singleMagnitude magnitude := by
  have hpos := pos_of_surplus_le (Nat.le_succ_of_le h)
  have hlower : 2 ^ 52 ≤ dropped (2 ^ 52 + magnitude % 2 ^ 52) (surplus (magnitude / 2 ^ 52)) :=
    le_dropped (Nat.pow_dvd_pow 2 h) (by omega)
  rw [singleMagnitude_of_surplus_le (Nat.le_succ_of_le h)]
  dsimp only
  rw [if_neg (by omega)]
  exact capped_mono (by omega)

theorem singleMagnitude_mono {m n : Nat} (h : m ≤ n) : singleMagnitude m ≤ singleMagnitude n := by
  rcases (Nat.div_le_div_right h : m / 2 ^ 52 ≤ n / 2 ^ 52).lt_or_eq with hlt | heq
  · rcases Nat.lt_or_ge (surplus (n / 2 ^ 52)) 53 with hsurplus | hsurplus
    · calc
        singleMagnitude m ≤ capped ((m / 2 ^ 52 + 1) * 2 ^ 52) := singleMagnitude_le_capped m
        _ ≤ capped (n / 2 ^ 52 * 2 ^ 52) := capped_mono (Nat.mul_le_mul_right _ hlt)
        _ ≤ singleMagnitude n := capped_le_singleMagnitude (Nat.le_of_lt_succ hsurplus)
    · rw [singleMagnitude_of_tiny (surplus_lt_of_lt hlt hsurplus)]
      exact Nat.zero_le _
  · rcases Nat.lt_or_ge 53 (surplus (m / 2 ^ 52)) with htiny | hsurplus
    · rw [singleMagnitude_of_tiny htiny]
      exact Nat.zero_le _
    · have hsignificand := dropped_mono (surplus (n / 2 ^ 52))
        (by omega : 2 ^ 52 + m % 2 ^ 52 ≤ 2 ^ 52 + n % 2 ^ 52)
      rw [singleMagnitude_of_surplus_le hsurplus, singleMagnitude_of_surplus_le (heq ▸ hsurplus),
        heq]
      dsimp only
      split
      · exact Nat.zero_le _
      · rw [if_neg (by omega)]
        exact capped_mono (by omega)

/-! ## Ranks -/

def singleRank (rank : Int) : Int :=
  withSign (rank < 0) (singleMagnitude rank.natAbs : Int)

theorem singleRank_withSign (negative : Bool) (magnitude : Nat) :
    singleRank (withSign negative (magnitude : Int)) =
      withSign negative (singleMagnitude magnitude : Int) := by
  have hzero : singleMagnitude 0 = 0 := by decide
  cases negative with
  | false =>
    have hsign : ¬ (magnitude : Int) < 0 := by omega
    simp [singleRank, withSign, hsign]
  | true =>
    rcases Nat.eq_zero_or_pos magnitude with rfl | hpos
    · simp [singleRank, withSign, hzero]
    · simp [singleRank, withSign, hpos.ne']

theorem singleRank_mono {a b : Int} (h : a ≤ b) : singleRank a ≤ singleRank b := by
  rcases lt_or_ge a 0 with ha | ha
  · have hleft : singleRank a = -(singleMagnitude a.natAbs : Int) := by
      simp [singleRank, withSign, ha]
    rcases lt_or_ge b 0 with hb | hb
    · have hright : singleRank b = -(singleMagnitude b.natAbs : Int) := by
        simp [singleRank, withSign, hb]
      have := singleMagnitude_mono (by omega : b.natAbs ≤ a.natAbs)
      omega
    · have hright : singleRank b = singleMagnitude b.natAbs := by
        simp [singleRank, withSign, hb.not_gt]
      omega
  · have hleft : singleRank a = singleMagnitude a.natAbs := by
      simp [singleRank, withSign, ha.not_gt]
    have hright : singleRank b = singleMagnitude b.natAbs := by
      simp [singleRank, withSign, (ha.trans h).not_gt]
    have := singleMagnitude_mono (by omega : a.natAbs ≤ b.natAbs)
    omega

theorem rank?_eq (x : Float) :
    rank? x =
      if x.toBits.toNat % 2 ^ 63 ≤ infinityBits then
        some (withSign (x.toBits.toNat / 2 ^ 63 % 2 == 1) ((x.toBits.toNat % 2 ^ 63 : Nat) : Int))
      else none :=
  rankOf?_partsOfBits _

theorem rank?_single (x : Float) : rank? (single x) = (rank? x).map singleRank := by
  have hinfinity : infinityBits = 2047 * 2 ^ 52 := rfl
  have hmod : (x.toBits % signBit).toNat = x.toBits.toNat % 2 ^ 63 := UInt64.toNat_mod ..
  by_cases hinfinite : infiniteBits ≤ x.toBits % signBit
  · have hle : infinityBits ≤ x.toBits.toNat % 2 ^ 63 := by
      rw [UInt64.le_iff_toNat_le, hmod] at hinfinite
      exact hinfinite
    rw [single_of_infinite hinfinite, rank?_eq]
    rcases hle.lt_or_eq with hlt | heq
    · rw [if_neg (Nat.not_le.mpr hlt)]
      rfl
    · have hfixed : singleMagnitude infinityBits = infinityBits := by decide
      rw [if_pos heq.ge, Option.map_some, singleRank_withSign, ← heq, hfixed]
  · have hlt : x.toBits.toNat % 2 ^ 63 < infinityBits := by
      rw [UInt64.le_iff_toNat_le, hmod] at hinfinite
      exact Nat.not_le.mp hinfinite
    have hmagnitude : (singleBits (x.toBits % signBit)).toNat =
        singleMagnitude (x.toBits.toNat % 2 ^ 63) := by
      rw [toNat_singleBits (hmod ▸ hlt), hmod]
    have hle := singleMagnitude_le (x.toBits.toNat % 2 ^ 63)
    have hword := toNat_single_word x.toBits
      (by omega : (singleBits (x.toBits % signBit)).toNat < 2 ^ 63)
    rw [hmagnitude] at hword
    rw [single_of_finite hinfinite, rank?_eq, rank?_eq, if_pos hlt.le]
    generalize x.toBits - x.toBits % signBit + singleBits (x.toBits % signBit) = word at hword ⊢
    have hrest : word.toNat % 2 ^ 63 = singleMagnitude (x.toBits.toNat % 2 ^ 63) := by omega
    have hsign : word.toNat / 2 ^ 63 = x.toBits.toNat / 2 ^ 63 := by omega
    rw [toBits_ofBits (by omega), if_pos (by omega), hrest, hsign, Option.map_some,
      singleRank_withSign]

/-- The order of doubles is kept by rounding them to single precision. -/
theorem single_mono {x y : Float} (h : x ≤ y) : single x ≤ single y := by
  obtain ⟨a, b, hx, hy, hle⟩ := le_iff_rank?.mp h
  refine le_iff_rank?.mpr ⟨singleRank a, singleRank b, ?_, ?_, singleRank_mono hle⟩
  · rw [rank?_single, hx, Option.map_some]
  · rw [rank?_single, hy, Option.map_some]

end DenseBench.Double
