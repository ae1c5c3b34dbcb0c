import DenseBench.Text.Numeral
import Mathlib

/-!
# Rounding of numbers that need none

A number has one significand and exponent in the form that doubles keep, and rounding any other
product that stands for the same number finds just these. Values are compared as rationals.
-/

namespace DenseBench.Double

open Float.Model Float.Model.UnpackedFloat

/-- The number that a significand and an exponent stand for. -/
def value (m : Nat) (e : Int) : ℚ :=
  m * 2 ^ e

/-- The form in which a finite double other than zero keeps its magnitude. -/
structure Canonical (m : Nat) (e : Int) : Prop where
  pos : 0 < m
  lt : m < 2 ^ 53
  lowest : -1074 ≤ e
  highest : e ≤ 971
  normal : 2 ^ 52 ≤ m ∨ e = -1074

theorem eq_mul_of_value_eq {M m : Nat} {E e : Int} (h : value M E = value m e) (hle : E ≤ e) :
    M = m * 2 ^ (e - E).toNat := by
  have hexp : e = E + ((e - E).toNat : Int) := by omega
  have htwo : (2 : ℚ) ≠ 0 := by norm_num
  have hpow : (2 : ℚ) ^ E ≠ 0 := zpow_ne_zero E htwo
  have hcast : (M : ℚ) = (m * 2 ^ (e - E).toNat : Nat) := by
    apply mul_right_cancel₀ hpow
    calc
      (M : ℚ) * 2 ^ E = m * 2 ^ e := h
      _ = m * 2 ^ (E + ((e - E).toNat : Int)) := by rw [← hexp]
      _ = (m * 2 ^ (e - E).toNat : Nat) * 2 ^ E := by
        rw [zpow_add₀ htwo, zpow_natCast]
        push_cast
        ring
  exact_mod_cast hcast

theorem log2_mul_two_pow {m : Nat} (hm : m ≠ 0) (k : Nat) : (m * 2 ^ k).log2 = m.log2 + k := by
  induction k with
  | zero => simp
  | succ k ih =>
    have hne : m * 2 ^ k ≠ 0 := Nat.mul_ne_zero hm (Nat.two_pow_pos k).ne'
    rw [Nat.pow_succ, ← Nat.mul_assoc, Nat.mul_comm, Nat.log2_two_mul hne, ih, Nat.add_assoc]

theorem log2_add_eq_of_value_eq {M m : Nat} {E e : Int} (hM : M ≠ 0) (hm : m ≠ 0)
    (h : value M E = value m e) : (M.log2 : Int) + E = m.log2 + e := by
  rcases le_total E e with hle | hle
  · rw [eq_mul_of_value_eq h hle, log2_mul_two_pow hm]
    omega
  · rw [eq_mul_of_value_eq h.symm hle, log2_mul_two_pow hM]
    omega

theorem value_eq_zero_iff {m : Nat} {e : Int} : value m e = 0 ↔ m = 0 := by
  have hpow : (2 : ℚ) ^ e ≠ 0 := zpow_ne_zero e (by norm_num)
  simp [value, hpow]

namespace Canonical

variable {m : Nat} {e : Int}

theorem targetExponent_eq (h : Canonical m e) {M : Nat} {E : Int}
    (hvalue : value M E = value m e) :
    Format.binary64.targetExponent (totalExponent M E) = e := by
  have hm : m ≠ 0 := h.pos.ne'
  have hM : M ≠ 0 := by
    rintro rfl
    exact hm (value_eq_zero_iff.mp (hvalue.symm.trans (value_eq_zero_iff.mpr rfl)))
  have hlog := log2_add_eq_of_value_eq hM hm hvalue
  have hupper : m.log2 < 53 := (Nat.log2_lt hm).mpr h.lt
  have hlower : m.log2 = 52 ∨ e = -1074 := by
    rcases h.normal with hnormal | hlowest
    · have := (Nat.le_log2 hm).mpr hnormal
      exact .inl (by omega)
    · exact .inr hlowest
  have hlowest := h.lowest
  change max ((M.log2 : Int) + 1 + E - 53) (-1074) = e
  omega

theorem shiftRight_exact (m k : Nat) :
    ExtendedMantissa.ofMantissaAndAccuracy (m * 2 ^ k) .exact >>> k =
      ExtendedMantissa.ofMantissaAndAccuracy m .exact := by
  induction k generalizing m with
  | zero => rw [Nat.pow_zero, Nat.mul_one]; rfl
  | succ k ih =>
    have hstep : ∀ x : ExtendedMantissa, x >>> (k + 1) = (x >>> k).shiftRightOne := fun _ => rfl
    have hscaled : m * 2 ^ (k + 1) = 2 * m * 2 ^ k := by ring
    rw [hstep, hscaled, ih]
    simp [ExtendedMantissa.shiftRightOne, ExtendedMantissa.ofMantissaAndAccuracy]

/-- Shifting out zeros leaves an exact significand. -/
theorem shiftToTargetExponent_eq (h : Canonical m e) (k : Nat) :
    shiftToTargetExponent Format.binary64 (m * 2 ^ k) (e - k) .exact =
      (ExtendedMantissa.ofMantissaAndAccuracy m .exact, e) := by
  have hvalue : value (m * 2 ^ k) (e - k) = value m e := by
    simp only [value]
    push_cast
    rw [zpow_sub₀ (by norm_num), zpow_natCast]
    field_simp
  have hshift : (e - (e - k)).toNat = k := by omega
  have hexp : e - (k : Int) + k = e := by omega
  simp only [shiftToTargetExponent, shiftToExponent, h.targetExponent_eq hvalue, hshift, hexp,
    shiftRight_exact]

theorem roundWithAccuracy_eq (h : Canonical m e) (sign : Sign) (k : Nat) :
    roundWithAccuracy Format.binary64 sign (m * 2 ^ k) (e - k) .exact =
      .finite sign m e h.pos := by
  have hsecond := h.shiftToTargetExponent_eq 0
  rw [Nat.pow_zero, Nat.mul_one, Nat.cast_zero, Int.sub_zero] at hsecond
  have hrounded : (ExtendedMantissa.ofMantissaAndAccuracy m .exact).roundedMantissa = m := rfl
  have hmantissa : (ExtendedMantissa.ofMantissaAndAccuracy m .exact).mantissa = m := rfl
  simp [roundWithAccuracy, h.shiftToTargetExponent_eq k, hrounded, hsecond, hmantissa, h.pos.ne']

/-- Rounding finds the canonical form of a number that has one. -/
theorem round_eq (h : Canonical m e) (sign : Sign) {M : Nat} {E : Int}
    (hvalue : value M E = value m e) :
    UnpackedFloat.round Format.binary64 sign M E = .finite sign m e h.pos := by
  simp only [UnpackedFloat.round, h.targetExponent_eq hvalue, decreaseExponent]
  rcases le_total E e with hle | hle
  · have hshift : (E - e).toNat = 0 := by omega
    have hexp : E - ((E - e).toNat : Int) = e - ((e - E).toNat : Int) := by omega
    rw [hexp, hshift, Nat.shiftLeft_zero, eq_mul_of_value_eq hvalue hle]
    exact h.roundWithAccuracy_eq sign _
  · have hexp : E - ((E - e).toNat : Int) = e - ((0 : Nat) : Int) := by omega
    have hm : M <<< (E - e).toNat = m * 2 ^ 0 := by
      rw [Nat.shiftLeft_eq, ← eq_mul_of_value_eq hvalue.symm hle, Nat.pow_zero, Nat.mul_one]
    rw [hexp, hm]
    exact h.roundWithAccuracy_eq sign 0

end Canonical

/-! ## Small naturals -/

theorem value_zero_exponent (n : Nat) : value n 0 = n := by
  simp [value]

theorem exists_canonical {n : Nat} (hpos : 0 < n) (hle : n ≤ 2 ^ 53) :
    ∃ m e, Canonical m e ∧ value m e = n := by
  rcases hle.lt_or_eq with hlt | rfl
  · have hlog : n.log2 < 53 := (Nat.log2_lt hpos.ne').mpr hlt
    have hlower : 2 ^ n.log2 ≤ n := (Nat.le_log2 hpos.ne').mp le_rfl
    have hupper : n < 2 ^ (n.log2 + 1) := (Nat.log2_lt hpos.ne').mp (Nat.lt_succ_self _)
    have hsplit : 2 ^ n.log2 * 2 ^ (52 - n.log2) = 2 ^ 52 := by
      rw [← Nat.pow_add]
      congr 1
      omega
    have hscale : 0 < 2 ^ (52 - n.log2) := Nat.two_pow_pos _
    refine ⟨n * 2 ^ (52 - n.log2), -((52 - n.log2 : Nat) : Int), ?_, ?_⟩
    · constructor
      · exact Nat.mul_pos hpos hscale
      · calc
          n * 2 ^ (52 - n.log2) < 2 ^ (n.log2 + 1) * 2 ^ (52 - n.log2) :=
            Nat.mul_lt_mul_of_pos_right hupper hscale
          _ = 2 ^ 52 * 2 := by rw [Nat.pow_succ, Nat.mul_right_comm, hsplit]
          _ = 2 ^ 53 := (Nat.pow_succ ..).symm
      · omega
      · omega
      · exact .inl (hsplit ▸ Nat.mul_le_mul_right _ hlower)
    · simp only [value]
      push_cast
      rw [zpow_neg, zpow_natCast]
      field_simp
  · refine ⟨2 ^ 52, 1, ?_, ?_⟩
    · constructor <;> decide
    · norm_num [value]

end DenseBench.Double
