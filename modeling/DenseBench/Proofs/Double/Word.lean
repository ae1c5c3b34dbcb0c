import DenseBench.Proofs.Double.Parts
import DenseBench.Settings.Load

/-!
# Words by way of doubles

A word beyond the signed range that is read as a double comes back rounded: of its bits the lowest
eleven have no room in the significand.
-/

namespace DenseBench.Double

open Decimal

/-- The quotient is off by half the divisor at most, once it is multiplied out. -/
theorem roundDiv_nearest (tie : Tie) (num : Nat) {den : Nat} (hden : 0 < den) :
    2 * (roundDiv tie num den * den) ≤ 2 * num + den ∧
      2 * num ≤ 2 * (roundDiv tie num den * den) + den := by
  have hnum : num / den * den + num % den = num := by
    rw [Nat.mul_comm]
    exact Nat.div_add_mod num den
  have hmod : num % den < den := Nat.mod_lt num hden
  have hnext : (num / den + 1) * den = num / den * den + den := Nat.succ_mul _ _
  unfold roundDiv
  dsimp only
  split
  · rename_i hdown
    rw [Bool.or_eq_true, decide_eq_true_iff, Bool.and_eq_true, beq_iff_eq] at hdown
    omega
  · rename_i hup
    rw [Bool.or_eq_true, not_or, decide_eq_true_iff] at hup
    omega

/-- The significand of the double nearest to a word beyond the signed range. -/
def wordSignificand (n : Nat) : Nat :=
  roundDiv .even n (2 ^ 11)

section

variable {n : Nat}

theorem wordSignificand_bounds (hlow : 2 ^ 63 ≤ n) (hhigh : n < 2 ^ 64) :
    2 ^ 52 ≤ wordSignificand n ∧ wordSignificand n ≤ 2 ^ 53 := by
  have hnearest := roundDiv_nearest .even n (Nat.two_pow_pos 11)
  change 2 * (wordSignificand n * 2 ^ 11) ≤ _ ∧ _ ≤ 2 * (wordSignificand n * 2 ^ 11) + _ at hnearest
  omega

theorem nearestBits_word (hlow : 2 ^ 63 ≤ n) (hhigh : n < 2 ^ 64) :
    nearestBits n 1 = 1085 * 2 ^ 52 + wordSignificand n := by
  have hne : n ≠ 0 := by omega
  have hlog : n.log2 = 63 := (Nat.log2_eq_iff hne).mpr ⟨hlow, hhigh⟩
  have hfirst : max ((n.log2 : Int) - (1 : Nat).log2 - 53) lowestExponent = 10 := by
    rw [hlog]
    decide
  have hlarge : 2 ^ 53 ≤ n / (1 * 2 ^ 10) := by omega
  obtain ⟨hmin, hmax⟩ := wordSignificand_bounds hlow hhigh
  have hscaled : shiftedRatio n 1 10 = (n, 1 * 2 ^ 10) := rfl
  have hratio : shiftedRatio n 1 (10 + 1) = (n, 2 ^ 11) := rfl
  have hbits : ((10 + 1 : Int) - lowestExponent).toNat = 1085 := rfl
  simp only [nearestBits, if_neg hne, hfirst, hscaled, if_pos hlarge, hratio, hbits]
  change min (if wordSignificand n < 2 ^ 52 then _ else _ + wordSignificand n) _ = _
  rw [if_neg (Nat.not_lt.mpr hmin)]
  apply Nat.min_eq_left
  change _ ≤ 2047 * 2 ^ 52
  omega

/-- Rounding up past the greatest significand gives the least one of the next exponent. -/
theorem parts_word (hlow : 2 ^ 63 ≤ n) (hhigh : n < 2 ^ 64) :
    ∃ m e, parts (nearest false n 0) = .finite false m (Int.ofNat e) ∧
      m * 2 ^ e = wordSignificand n * 2 ^ 11 := by
  obtain ⟨hmin, hmax⟩ := wordSignificand_bounds hlow hhigh
  have hnearest : nearest false n 0 = ofParts false (1085 * 2 ^ 52 + wordSignificand n) := by
    rw [← nearestBits_word hlow hhigh]
    have hzero : n ≠ 0 := by omega
    have hsmall : ¬ (0 : Int) < -exponentLimit - n.log2 := by
      unfold exponentLimit
      omega
    have hten : n * 10 ^ (0 : Int).toNat = n := Nat.mul_one n
    simp only [nearest, if_neg hzero, if_neg hsmall, hten]
    rfl
  rcases Nat.lt_or_eq_of_le hmax with hlt | heq
  · have hcanonical : Canonical (wordSignificand n) 11 :=
      ⟨by omega, hlt, by decide, by decide, .inl hmin⟩
    have hbits : 1085 * 2 ^ 52 + wordSignificand n = magnitudeBits (wordSignificand n) 11 := rfl
    refine ⟨wordSignificand n, 11, ?_, rfl⟩
    rw [hnearest, hbits, hcanonical.parts_eq]
    rfl
  · have hcanonical : Canonical (2 ^ 52) 12 :=
      ⟨by decide, by decide, by decide, by decide, .inl le_rfl⟩
    have hbits : 1085 * 2 ^ 52 + 2 ^ 53 = magnitudeBits (2 ^ 52) 12 := rfl
    refine ⟨2 ^ 52, 12, ?_, by rw [heq]⟩
    rw [hnearest, heq, hbits, hcanonical.parts_eq]
    rfl

/-- A word beyond the signed range comes back rounded to a multiple of `2^11`, or as the greatest
word. -/
theorem nearestWord_nearest (hlow : 2 ^ 63 ≤ n) (hhigh : n < 2 ^ 64) :
    Settings.Tree.nearestWord (nearest false n 0) =
      min (wordSignificand n * 2 ^ 11) Settings.Tree.greatestWord := by
  obtain ⟨m, e, hparts, hvalue⟩ := parts_word hlow hhigh
  have hexponent : (0 : Int) ≤ Int.ofNat e := Int.natCast_nonneg e
  have htoNat : (Int.ofNat e).toNat = e := rfl
  simp only [Settings.Tree.nearestWord, hparts, Bool.false_eq_true, if_false, if_pos hexponent,
    htoNat, hvalue]
  congr 1
  omega

end

end DenseBench.Double
