import DenseBench.Proofs.Double.Number
import DenseBench.Proofs.Reduction

/-!
# Sums of doubles

A sum that is a double's number itself is found without rounding. So integers add up exactly as far
as their sums are small, and doubles count truth values exactly.
-/

namespace DenseBench.Double

open Float.Model Float.Model.UnpackedFloat

/-- Some double is this rational number. -/
def IsDouble (q : ℚ) : Prop :=
  q = 0 ∨ ∃ m e, Canonical m e ∧ |q| = value m e

theorem isDouble_intCast {z : Int} (h : z.natAbs ≤ 2 ^ 53) : IsDouble z := by
  rcases Nat.eq_zero_or_pos z.natAbs with hzero | hpos
  · left
    rw [Int.natAbs_eq_zero.mp hzero, Int.cast_zero]
  · right
    obtain ⟨m, e, hcanonical, hvalue⟩ := exists_canonical hpos h
    refine ⟨m, e, hcanonical, ?_⟩
    rw [hvalue, Nat.cast_natAbs, Int.cast_abs]

theorem value_natAbs (z e : Int) : value z.natAbs e = |(z * 2 ^ e : ℚ)| := by
  have hpow : (0 : ℚ) < 2 ^ e := zpow_pos (by norm_num) e
  rw [value, abs_mul, abs_of_pos hpow, Nat.cast_natAbs, Int.cast_abs]

/-- What is a double's number already is not changed when it is rounded. -/
theorem normalize_eq {z e : Int} (h : IsDouble (z * 2 ^ e)) :
    Proper (normalize Format.binary64 z e .positive) ∧
      numberOf? (normalize Format.binary64 z e .positive) = some ((z * 2 ^ e : ℚ) : Extended) := by
  have hpow : (0 : ℚ) < 2 ^ e := zpow_pos (by norm_num) e
  unfold UnpackedFloat.normalize
  rcases lt_trichotomy z 0 with hneg | rfl | hpos
  · have hproduct : (z * 2 ^ e : ℚ) < 0 := mul_neg_of_neg_of_pos (Int.cast_lt_zero.mpr hneg) hpow
    obtain ⟨m, t, hcanonical, hvalue⟩ := h.resolve_left hproduct.ne
    have habs : (-z).toNat = z.natAbs := by omega
    have hround := hcanonical.round_eq .negative ((value_natAbs z e).trans hvalue)
    rw [compare_lt_iff_lt.mpr hneg, habs]
    simp only [hround]
    refine ⟨hcanonical, ?_⟩
    rw [numberOf?, signedValue_negative, ← hvalue, abs_of_neg hproduct, neg_neg]
  · rw [compare_eq_iff_eq.mpr rfl, Int.cast_zero, zero_mul]
    exact ⟨trivial, rfl⟩
  · have hproduct : (0 : ℚ) < z * 2 ^ e := mul_pos (Int.cast_pos.mpr hpos) hpow
    obtain ⟨m, t, hcanonical, hvalue⟩ := h.resolve_left hproduct.ne'
    have habs : z.toNat = z.natAbs := by omega
    have hround := hcanonical.round_eq .positive ((value_natAbs z e).trans hvalue)
    rw [compare_gt_iff_gt.mpr hpos, habs]
    simp only [hround]
    refine ⟨hcanonical, ?_⟩
    rw [numberOf?, signedValue_positive, ← hvalue, abs_of_pos hproduct]

theorem value_shiftLeft {m : Nat} {e t : Int} (hle : t ≤ e) :
    value (m <<< (e - t).toNat) t = value m e := by
  have htwo : (2 : ℚ) ≠ 0 := by norm_num
  have hexp : e = ((e - t).toNat : Int) + t := by omega
  calc
    value (m <<< (e - t).toNat) t = m * (2 ^ (((e - t).toNat : Nat) : Int) * 2 ^ t) := by
      rw [value, Nat.shiftLeft_eq, zpow_natCast]
      push_cast
      ring
    _ = m * 2 ^ e := by rw [← zpow_add₀ htwo, ← hexp]

theorem signedValue_decreaseExponent (s : Sign) (m : Nat) {e t : Int} (h : t ≤ e) :
    signedValue s (decreaseExponent m e t).1 t = signedValue s m e := by
  have hvalue : value (decreaseExponent m e t).1 t = value m e := value_shiftLeft h
  cases s with
  | positive => rw [signedValue_positive, signedValue_positive, hvalue]
  | negative => rw [signedValue_negative, signedValue_negative, hvalue]

theorem numberOf?_eq_coe {u : UnpackedFloat} {q : ℚ} (h : numberOf? u = some (q : Extended)) :
    (∃ s, u = .zero s ∧ q = 0) ∨ ∃ s m e hpos, u = .finite s m e hpos ∧ q = signedValue s m e := by
  cases u with
  | notANumber => cases h
  | infinity s => cases s <;> cases h
  | zero s =>
    cases h
    exact .inl ⟨s, rfl, rfl⟩
  | finite s m e hpos =>
    cases h
    exact .inr ⟨s, m, e, hpos, rfl, rfl⟩

theorem add_eq {u v : UnpackedFloat} (hu : Proper u) (hv : Proper v) {p q : ℚ}
    (hp : numberOf? u = some (p : Extended)) (hq : numberOf? v = some (q : Extended))
    (h : IsDouble (p + q)) :
    Proper (UnpackedFloat.add Format.binary64 u v) ∧
      numberOf? (UnpackedFloat.add Format.binary64 u v) = some ((p + q : ℚ) : Extended) := by
  obtain ⟨s, rfl, rfl⟩ | ⟨s, m, e, hpos, rfl, rfl⟩ := numberOf?_eq_coe hp
  · rw [zero_add]
    obtain ⟨t, rfl, rfl⟩ | ⟨t, m, e, hpos, rfl, rfl⟩ := numberOf?_eq_coe hq
    · cases s <;> cases t <;> exact ⟨trivial, rfl⟩
    · exact ⟨hv, hq⟩
  · obtain ⟨t, rfl, rfl⟩ | ⟨t, m', e', hpos', rfl, rfl⟩ := numberOf?_eq_coe hq
    · rw [add_zero]
      exact ⟨hu, hp⟩
    · have hsum : signedValue s m e + signedValue t m' e' =
          ((s.apply ((decreaseExponent m e (min e e')).1 : Int) +
            t.apply ((decreaseExponent m' e' (min e e')).1 : Int) : Int) : ℚ) * 2 ^ min e e' := by
        rw [← signedValue_decreaseExponent s m (min_le_left e e'),
          ← signedValue_decreaseExponent t m' (min_le_right e e'), signedValue, signedValue,
          Int.cast_add, add_mul]
      rw [hsum] at h ⊢
      exact normalize_eq h

/-- A sum that is a double's number is found without rounding. -/
theorem number?_add {x y : Float} {p q : ℚ} (hx : number? x = some (p : Extended))
    (hy : number? y = some (q : Extended)) (h : IsDouble (p + q)) :
    number? (x + y) = some ((p + q : ℚ) : Extended) := by
  obtain ⟨hproper, hnumber⟩ := add_eq (proper_unpack _) (proper_unpack _) hx hy h
  exact (number?_ofModel_pack hproper).trans hnumber

theorem number?_ofNat {n : Nat} (h : n ≤ 2 ^ 53) :
    number? (Scalar.ofNat n) = some ((n : ℚ) : Extended) := by
  have hword : (UInt64.ofNat n).toNat = n :=
    UInt64.toNat_ofNat_of_lt' (by change n < 2 ^ 64; omega)
  have hmodel : (Scalar.ofNat n : Float) =
      .ofModel (.pack (normalize Format.binary64 n 0 .positive)) := by
    change Float.ofModel (.pack (UnpackedFloat.ofNat Format.binary64 (UInt64.ofNat n).toNat)) = _
    rw [hword]
    rfl
  have hvalue : (((n : Int) : ℚ) * 2 ^ (0 : Int)) = n := by simp
  obtain ⟨hproper, hnumber⟩ := normalize_eq (z := n) (e := 0) (by
    rw [hvalue]
    exact isDouble_intCast (z := n) h)
  rw [hmodel, number?_ofModel_pack hproper, hnumber, hvalue]

/-- Doubles count: naturals up to `2^53` add up without loss. -/
instance : CountsExactly Float where
  ofNat_zero := rfl
  ofNat_one := by decide +kernel
  add_ofNat a b hle := by
    have hsum : number? (Scalar.add (Scalar.ofNat a : Float) (Scalar.ofNat b)) =
        number? (Scalar.ofNat (a + b)) := by
      rw [number?_ofNat hle, Nat.cast_add]
      apply number?_add (number?_ofNat (by omega)) (number?_ofNat (by omega))
      exact_mod_cast isDouble_intCast (z := (a + b : Nat)) hle
    rcases number?_eq_iff.mp hsum with heq | ⟨-, hzero⟩
    · exact heq
    · have hnone : ((a + b : Nat) : ℚ) = 0 := by
        apply WithBotTop.coe_injective
        exact Option.some_inj.mp ((number?_ofNat hle).symm.trans (isZero_iff.mp hzero))
      obtain ⟨rfl, rfl⟩ : a = 0 ∧ b = 0 := by
        rw [Nat.cast_eq_zero] at hnone
        omega
      rfl
  coerce_ofBool b := by
    cases b <;> decide +kernel

end DenseBench.Double
