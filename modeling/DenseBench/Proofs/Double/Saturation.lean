import DenseBench.Proofs.Double.Parts

/-!
# Saturation

What an integer type makes of a double is a double that the type leaves as it is: a whole number
within the bounds, or the double nearest to a bound.
-/

namespace DenseBench.Double

open Decimal

/-- The bound of the magnitudes with a sign. -/
def boundOf (bounds : Nat × Nat) (negative : Bool) : Nat :=
  if negative then bounds.1 else bounds.2

theorem saturate_eq (b : Nat × Nat) (x : Float) :
    saturate b x =
      match parts x with
      | .nan => 0.0
      | .infinite negative => ofInteger negative (boundOf b negative)
      | .finite negative m q => ofInteger negative (min (wholePart m q) (boundOf b negative)) :=
  rfl

def Representable (n : Nat) : Prop :=
  n = 0 ∨ ∃ m e, Canonical m e ∧ value m e = n

theorem wholePart_eq {m n : Nat} {e : Int} (hvalue : value m e = n) : wholePart m e = n := by
  have hvalue' : value n 0 = value m e := (value_zero_exponent n).trans hvalue.symm
  unfold wholePart shiftedRatio
  split
  · rename_i he
    have hm := eq_mul_of_value_eq hvalue'.symm (by omega)
    rw [Int.zero_sub] at hm
    rw [hm, Nat.one_mul]
    exact Nat.mul_div_cancel n (Nat.two_pow_pos _)
  · rename_i he
    have hn := eq_mul_of_value_eq hvalue' (by omega)
    rw [Int.sub_zero] at hn
    rw [hn, Int.neg_neg]
    exact Nat.div_one _

/-- The whole part of a double is a double. -/
theorem representable_wholePart {x : Float} {negative : Bool} {m : Nat} {q : Int}
    (h : parts x = .finite negative m q) : Representable (wholePart m q) := by
  rcases Nat.eq_zero_or_pos (wholePart m q) with hzero | hpos
  · exact .inl hzero
  · have hm : m ≠ 0 := by
      rintro rfl
      have hwhole : wholePart 0 q = 0 := wholePart_eq (by simp [value])
      omega
    have hcanonical := canonical_of_parts h hm
    right
    rcases le_total 0 q with hq | hq
    · have hvalue : value m q = (m * 2 ^ q.toNat : Nat) := by
        have hpow : q = (q.toNat : Int) := (Int.toNat_of_nonneg hq).symm
        rw [value, hpow, zpow_natCast]
        push_cast
        rfl
      exact ⟨m, q, hcanonical, by rw [wholePart_eq hvalue, hvalue]⟩
    · have hle : wholePart m q ≤ m := by
        unfold wholePart shiftedRatio
        rw [if_pos (by omega)]
        exact Nat.div_le_self m _
      exact exists_canonical hpos (hle.trans hcanonical.lt.le)

theorem parts_ofInteger {n : Nat} (hn : 0 < n) (h : Representable n) (negative : Bool) :
    ∃ m e, value m e = n ∧ parts (ofInteger negative n) = .finite negative m e := by
  obtain ⟨m, e, hcanonical, hvalue⟩ := h.resolve_left hn.ne'
  refine ⟨m, e, hvalue, ?_⟩
  have hnegative : (negative && n != 0) = negative := by
    simp [hn.ne']
  rw [ofInteger, hnegative, hcanonical.nearestBits_eq hn hvalue, hcanonical.parts_eq]

theorem saturate_ofInteger {b : Nat × Nat} {negative : Bool} {n : Nat} (h : Representable n)
    (hle : n ≤ boundOf b negative) : saturate b (ofInteger negative n) = ofInteger negative n := by
  rcases Nat.eq_zero_or_pos n with rfl | hn
  · have hzero : ofInteger negative 0 = 0.0 := by cases negative <;> decide +kernel
    have hparts : parts 0.0 = .finite false 0 (-1074) := by decide +kernel
    rw [hzero, saturate_eq, hparts]
    have hwhole : wholePart 0 (-1074) = 0 := wholePart_eq (by simp [value])
    simp only [hwhole, Nat.zero_min]
    decide +kernel
  · obtain ⟨m, e, hvalue, hparts⟩ := parts_ofInteger hn h negative
    rw [saturate_eq, hparts]
    simp only [wholePart_eq hvalue, Nat.min_eq_left hle]

/-- The double nearest to a bound stands for the bound, also where it lies beyond it. -/
theorem saturate_bound (t : ElementType) (negative : Bool) :
    saturate (bounds t) (ofInteger negative (boundOf (bounds t) negative)) =
      ofInteger negative (boundOf (bounds t) negative) := by
  cases t <;> cases negative <;> decide +kernel

theorem saturate_saturate (t : ElementType) (x : Float) :
    saturate (bounds t) (saturate (bounds t) x) = saturate (bounds t) x := by
  rw [saturate_eq (bounds t) x]
  cases hparts : parts x with
  | nan =>
    have hzero : ofInteger false 0 = 0.0 := by decide +kernel
    have hfixed : saturate (bounds t) (ofInteger false 0) = ofInteger false 0 :=
      saturate_ofInteger (.inl rfl) (Nat.zero_le _)
    rwa [hzero] at hfixed
  | infinite negative => exact saturate_bound t negative
  | finite negative m q =>
    dsimp only
    rcases le_total (wholePart m q) (boundOf (bounds t) negative) with hle | hle
    · rw [Nat.min_eq_left hle]
      exact saturate_ofInteger (representable_wholePart hparts) hle
    · rw [Nat.min_eq_right hle]
      exact saturate_bound t negative

end DenseBench.Double
