import DenseBench.Proofs.Double.Number
import DenseBench.Proofs.Double.Parts

/-!
# The order of doubles

The parts of a double tell its number, and they tell its rank: the word of its magnitude, counted
downwards if it is negative. Doubles are in order just if their numbers are, and just if their ranks
are.
-/

namespace DenseBench.Double

open Decimal Float.Model Float.Model.UnpackedFloat

/-! ## Parts of unpacked doubles -/

def isNegative : Sign → Bool
  | .negative => true
  | .positive => false

theorem isNegative_ofBitVec (b : BitVec 1) : isNegative (Sign.ofBitVec b) = (b.toNat == 1) := by
  rcases BitVec.eq_zero_or_eq_one b with rfl | rfl <;> rfl

def withSign {G : Type} [Neg G] (negative : Bool) (a : G) : G :=
  if negative then -a else a

@[simp] theorem withSign_true {G : Type} [Neg G] (a : G) : withSign true a = -a :=
  rfl

@[simp] theorem withSign_false {G : Type} [Neg G] (a : G) : withSign false a = a :=
  rfl

def partsOf : UnpackedFloat → Parts
  | .notANumber => .nan
  | .infinity s => .infinite (isNegative s)
  | .zero s => .finite (isNegative s) 0 lowestExponent
  | .finite s m e _ => .finite (isNegative s) m e

theorem toNat_unpackSign (v : Word) : (unpackSign v).toNat = v.toNat / 2 ^ 63 % 2 := by
  simp [unpackSign_def, Nat.shiftRight_eq_div_pow]

theorem partsOfBits_toNat (v : Word) :
    partsOfBits v.toNat = partsOf (UnpackedFloat.unpack Format.binary64 v) := by
  have hsign := isNegative_ofBitVec (unpackSign v)
  have hleading := toNat_one_append (unpackMantissa v)
  -- the fields of a word are tested as bit vectors there and as naturals here
  have hlast : (unpackExponent v).toNat = 2047 ↔ unpackExponent v = -1#11 :=
    ⟨fun h => BitVec.eq_of_toNat_eq h, fun h => congrArg BitVec.toNat h⟩
  have hfirst : (unpackExponent v).toNat = 0 ↔ unpackExponent v = 0#11 :=
    ⟨fun h => BitVec.eq_of_toNat_eq h, fun h => congrArg BitVec.toNat h⟩
  have hnone : (unpackMantissa v).toNat = 0 ↔ unpackMantissa v = 0#52 :=
    ⟨fun h => BitVec.eq_of_toNat_eq h, fun h => congrArg BitVec.toNat h⟩
  unfold partsOfBits UnpackedFloat.unpack
  simp only
  rw [← toNat_unpackSign, ← toNat_unpackExponent, ← toNat_unpackMantissa, ← hsign]
  by_cases hinfinite : unpackExponent v = -1#11
  · rw [if_pos (hlast.mpr hinfinite), if_pos hinfinite]
    by_cases hm : unpackMantissa v = 0#52
    · rw [if_pos (hnone.mpr hm), if_pos hm]
      rfl
    · rw [if_neg (mt hnone.mp hm), if_neg hm]
      rfl
  · rw [if_neg (mt hlast.mp hinfinite), if_neg hinfinite]
    by_cases he : unpackExponent v = 0#11
    · rw [if_pos (hfirst.mpr he), if_pos he]
      by_cases hm : unpackMantissa v = 0#52
      · rw [dif_pos hm, hnone.mpr hm]
        rfl
      · rw [dif_neg hm, he]
        rfl
    · have hnormal : (unpackExponent v).toNat ≠ 0 := mt hfirst.mp he
      have hbias : ((unpackExponent v).toNat : Int) - (1023 + 52) =
          lowestExponent + ((unpackExponent v).toNat - 1 : Nat) := by
        unfold lowestExponent
        omega
      rw [if_neg hnormal, if_neg he, ← hleading, ← hbias]
      rfl

theorem parts_eq (x : Float) : parts x = partsOf x.toModel.unpack :=
  partsOfBits_toNat _

/-! ## Numbers and ranks -/

def numberOfParts? : Parts → Option Extended
  | .nan => none
  | .infinite negative => some (if negative then ⊥ else ⊤)
  | .finite negative m e => some ((withSign negative (value m e) : ℚ) : Extended)

theorem number?_eq_parts (x : Float) : number? x = numberOfParts? (parts x) := by
  rw [parts_eq, number?]
  cases x.toModel.unpack with
  | notANumber => rfl
  | infinity s => cases s <;> rfl
  | zero s => cases s <;> simp [partsOf, numberOfParts?, numberOf?, withSign, value]
  | finite s m e hpos =>
    cases s <;> simp [partsOf, numberOfParts?, numberOf?, withSign, isNegative]

def rankOf? : Parts → Option Int
  | .nan => none
  | .infinite negative => some (withSign negative (infinityBits : Int))
  | .finite negative m e => some (withSign negative (magnitudeBits m e : Int))

def rank? (x : Float) : Option Int :=
  rankOf? (parts x)

/-- The rank of a word is the word without its sign, unless it lies beyond infinity. -/
theorem rankOf?_partsOfBits (bits : Nat) :
    rankOf? (partsOfBits bits) =
      if bits % 2 ^ 63 ≤ infinityBits then
        some (withSign (bits / 2 ^ 63 % 2 == 1) ((bits % 2 ^ 63 : Nat) : Int))
      else none := by
  have hsplit : bits % 2 ^ 63 = bits / 2 ^ 52 % 2 ^ 11 * 2 ^ 52 + bits % 2 ^ 52 := by omega
  have hexponent : bits / 2 ^ 52 % 2 ^ 11 < 2 ^ 11 := Nat.mod_lt _ (by decide)
  have hfraction : bits % 2 ^ 52 < 2 ^ 52 := Nat.mod_lt _ (by decide)
  have hinfinity : infinityBits = 2047 * 2 ^ 52 := rfl
  unfold partsOfBits
  simp only [hsplit]
  generalize bits / 2 ^ 52 % 2 ^ 11 = exponent at hexponent
  generalize bits % 2 ^ 52 = fraction at hfraction
  by_cases hlast : exponent = 2047
  · rw [if_pos hlast, hlast]
    by_cases hzero : fraction = 0
    · rw [if_pos hzero, hzero, if_pos (by omega)]
      rfl
    · rw [if_neg hzero, if_neg (by omega)]
      rfl
  · have hle : exponent * 2 ^ 52 + fraction ≤ infinityBits := by omega
    rw [if_neg hlast, if_pos hle]
    by_cases hfirst : exponent = 0
    · have hbits : magnitudeBits fraction lowestExponent = 0 * 2 ^ 52 + fraction := rfl
      rw [if_pos hfirst, hfirst, rankOf?, hbits]
    · have hbits : magnitudeBits (2 ^ 52 + fraction) (lowestExponent + (exponent - 1 : Nat)) =
          exponent * 2 ^ 52 + fraction := by
        unfold magnitudeBits lowestExponent
        omega
      rw [if_neg hfirst, rankOf?, hbits]

/-! ## Comparisons -/

namespace Canonical

variable {m m' : Nat} {e e' : Int}

theorem magnitudeBits_pos (h : Canonical m e) : 0 < magnitudeBits m e := by
  have hpos := h.pos
  unfold magnitudeBits
  omega

theorem compare_magnitudeBits (h : Canonical m e) (h' : Canonical m' e') :
    compare (magnitudeBits m e : Int) (magnitudeBits m' e') =
      (compare e e').then (compare m m') := by
  obtain ⟨hpos, hlt, hlowest, -, hnormal⟩ := h
  obtain ⟨hpos', hlt', hlowest', -, hnormal'⟩ := h'
  unfold magnitudeBits
  rcases lt_trichotomy e e' with hless | rfl | hgreater
  · rw [compare_lt_iff_lt.mpr hless, compare_lt_iff_lt.mpr (by omega)]
    rfl
  · rw [compare_eq_iff_eq.mpr (rfl : e = e), Ordering.eq_then]
    rcases lt_trichotomy m m' with hm | rfl | hm
    · rw [compare_lt_iff_lt.mpr hm, compare_lt_iff_lt.mpr (by omega)]
    · rw [compare_eq_iff_eq.mpr rfl, compare_eq_iff_eq.mpr rfl]
    · rw [compare_gt_iff_gt.mpr hm, compare_gt_iff_gt.mpr (by omega)]
  · rw [compare_gt_iff_gt.mpr hgreater, compare_gt_iff_gt.mpr (by omega)]
    rfl

end Canonical

/-- The scale of ranks. -/
def ranks : Scale Int where
  lowest := -(infinityBits : Int)
  zero := 0
  highest := infinityBits
  below m e := -(magnitudeBits m e : Int)
  above m e := magnitudeBits m e
  lowest_lt h := Int.neg_lt_neg (Int.ofNat_lt.mpr h.magnitudeBits_lt)
  below_lt h := Int.neg_neg_of_pos (Int.ofNat_lt.mpr h.magnitudeBits_pos)
  lt_above h := Int.ofNat_lt.mpr h.magnitudeBits_pos
  above_lt h := Int.ofNat_lt.mpr h.magnitudeBits_lt
  compare_below h h' := by rw [compare_neg_neg, h.compare_magnitudeBits h']
  compare_above h h' := h.compare_magnitudeBits h'

theorem rankOf?_partsOf (u : UnpackedFloat) : rankOf? (partsOf u) = ranks.place? u := by
  cases u with
  | notANumber => rfl
  | infinity s =>
    cases s with
    | positive => exact congrArg some (withSign_false _)
    | negative => exact congrArg some (withSign_true _)
  | zero s => cases s <;> rfl
  | finite s m e hpos =>
    cases s with
    | positive => exact congrArg some (withSign_false _)
    | negative => exact congrArg some (withSign_true _)

theorem isLE_map₂_compare {E : Type} [LinearOrder E] {a b : Option E} :
    (Option.map₂ compare a b).any (·.isLE) = true ↔ ∃ p q, a = some p ∧ b = some q ∧ p ≤ q := by
  cases a with
  | none => simp
  | some p =>
    cases b with
    | none => simp
    | some q => simp [Ordering.isLE_iff_ne_gt, compare_gt_iff_gt]

variable {x y : Float}

/-- Doubles are in order if their numbers are, and what is not a number is in no order. -/
theorem le_iff_number? : x ≤ y ↔ ∃ a b, number? x = some a ∧ number? y = some b ∧ a ≤ b := by
  have hle : x ≤ y ↔ (x.toModel.compare y.toModel).any (·.isLE) = true := by
    change decide (x.toModel ≤ y.toModel) = true ↔ _
    exact decide_eq_true_iff
  rw [hle, compare_toModel, isLE_map₂_compare]

theorem le_iff_rank? : x ≤ y ↔ ∃ a b, rank? x = some a ∧ rank? y = some b ∧ a ≤ b := by
  have hcompare : x.toModel.compare y.toModel = Option.map₂ compare (rank? x) (rank? y) := by
    rw [rank?, rank?, parts_eq, parts_eq, rankOf?_partsOf, rankOf?_partsOf]
    exact ranks.compare_place? (proper_unpack _) (proper_unpack _)
  rw [le_iff_number?, ← isLE_map₂_compare, ← compare_toModel, hcompare, isLE_map₂_compare]

end DenseBench.Double
