import DenseBench.Proofs.Double.Bits
import DenseBench.Ufunc.ScalarOp

/-!
# The numbers that doubles are

A double is a rational number or one of two infinities, unless it is not a number. Both zeros are
the number zero, and no other number has two doubles. Doubles compare as their numbers do.
-/

namespace DenseBench.Double

open Float.Model Float.Model.UnpackedFloat

/-- The rational numbers with an infinity at each end. -/
abbrev Extended := WithBotTop ℚ

/-- An unpacked double in the form that words keep. -/
def Proper : UnpackedFloat → Prop
  | .finite _ m e _ => Canonical m e
  | _ => True

def signedValue (sign : Sign) (m : Nat) (e : Int) : ℚ :=
  sign.apply m * 2 ^ e

/-- The number that an unpacked double is; none for what is not a number. -/
def numberOf? : UnpackedFloat → Option Extended
  | .notANumber => none
  | .infinity .negative => some ⊥
  | .infinity .positive => some ⊤
  | .zero _ => some ((0 : ℚ) : Extended)
  | .finite sign m e _ => some (signedValue sign m e : Extended)

def number? (x : Float) : Option Extended :=
  numberOf? x.toModel.unpack

section Unpacking

theorem canonical_of_unpack {v : Word} {sign : Sign} {m : Nat} {e : Int} {hpos : 0 < m}
    (h : UnpackedFloat.unpack Format.binary64 v = .finite sign m e hpos) : Canonical m e := by
  have hmantissa := toNat_unpackMantissa v
  have hfraction : v.toNat % 2 ^ 52 < 2 ^ 52 := Nat.mod_lt _ (by decide)
  have hfield := (unpackExponent v).isLt
  unfold UnpackedFloat.unpack at h
  simp only at h
  split at h
  · split at h <;> cases h
  · rename_i hfinite
    have hlast : (unpackExponent v).toNat ≠ 2047 := fun hfull =>
      hfinite (BitVec.eq_of_toNat_eq hfull)
    change (unpackExponent v).toNat < 2 ^ 11 at hfield
    split at h
    · rename_i hzero
      split at h
      · cases h
      · injection h with _ hm he
        rw [hzero] at he
        change (0 : Int) - (1023 + 52) + 1 = e at he
        exact ⟨hpos, by omega, by omega, by omega, .inr (by omega)⟩
    · rename_i hnormal
      have hfirst : (unpackExponent v).toNat ≠ 0 := fun hzero =>
        hnormal (BitVec.eq_of_toNat_eq hzero)
      -- the word leaves out the leading bit of a normal significand
      injection h with _ hm he
      have hleading := toNat_one_append (unpackMantissa v)
      change ((unpackExponent v).toNat : Int) - (1023 + 52) = e at he
      change (1#1 ++ unpackMantissa v).toNat = m at hm
      exact ⟨hpos, by omega, by omega, by omega, .inl (by omega)⟩

theorem proper_unpack (v : Word) : Proper (UnpackedFloat.unpack Format.binary64 v) := by
  cases h : UnpackedFloat.unpack Format.binary64 v with
  | finite sign m e hpos => exact canonical_of_unpack h
  | infinity sign => trivial
  | notANumber => trivial
  | zero sign => trivial

theorem unpack_pack {u : UnpackedFloat} (h : Proper u) :
    UnpackedFloat.unpack Format.binary64 (UnpackedFloat.pack Format.binary64 u) = u := by
  cases u with
  | finite sign m e hpos => exact unpack_pack_finite h
  | infinity sign => cases sign <;> rfl
  | notANumber => exact unpack_packedNaN
  | zero sign => exact unpack_packedZero

theorem number?_ofModel_pack {u : UnpackedFloat} (h : Proper u) :
    number? (.ofModel (.pack u)) = numberOf? u :=
  congrArg numberOf? (unpack_pack h)

end Unpacking

section Order

theorem Canonical.value_pos {m : Nat} {e : Int} (h : Canonical m e) : 0 < value m e :=
  mul_pos (Nat.cast_pos.mpr h.pos) (zpow_pos (by norm_num) e)

theorem Canonical.value_lt_of_lt {m m' : Nat} {e e' : Int} (h : Canonical m e)
    (h' : Canonical m' e') (he : e < e') : value m e < value m' e' := by
  -- a double whose exponent is not the lowest is normal, and smaller exponents stay below it
  have hnormal : 2 ^ 52 ≤ m' := h'.normal.resolve_right (by have := h.lowest; omega)
  have hexp : e' = (e' - e - 1 : Int) + (1 + e) := by ring
  have hpow : (0 : ℚ) < 2 ^ e := zpow_pos (by norm_num) e
  have hscale : (1 : ℚ) ≤ 2 ^ (e' - e - 1) := one_le_zpow₀ (by norm_num) (by omega)
  calc
    value m e < 2 ^ 53 * 2 ^ e := by
      apply mul_lt_mul_of_pos_right _ hpow
      exact_mod_cast h.lt
    _ = 2 ^ 52 * (1 * 2 ^ (1 + e)) := by
      rw [zpow_one_add₀ (by norm_num)]
      ring
    _ ≤ m' * (2 ^ (e' - e - 1) * 2 ^ (1 + e)) := by
      gcongr
      exact_mod_cast hnormal
    _ = value m' e' := by
      rw [← zpow_add₀ (by norm_num), ← hexp]
      rfl

theorem Canonical.compare_value {m m' : Nat} {e e' : Int} (h : Canonical m e)
    (h' : Canonical m' e') :
    compare (value m e) (value m' e') = (compare e e').then (compare m m') := by
  rcases lt_trichotomy e e' with hlt | rfl | hgt
  · rw [compare_lt_iff_lt.mpr hlt, compare_lt_iff_lt.mpr (h.value_lt_of_lt h' hlt)]
    rfl
  · have hmono : StrictMono fun m : Nat => value m e := fun a b hlt =>
      mul_lt_mul_of_pos_right (Nat.cast_lt.mpr hlt) (zpow_pos (by norm_num) e)
    rw [compare_eq_iff_eq.mpr (rfl : e = e), ← cmp_eq_compare, ← cmp_eq_compare]
    exact hmono.cmp_map_eq m m'
  · rw [compare_gt_iff_gt.mpr hgt, compare_gt_iff_gt.mpr (h'.value_lt_of_lt h hgt)]
    rfl

@[simp] theorem signedValue_positive (m : Nat) (e : Int) :
    signedValue .positive m e = value m e := by
  simp [signedValue, Sign.apply, value]

@[simp] theorem signedValue_negative (m : Nat) (e : Int) :
    signedValue .negative m e = -value m e := by
  simp [signedValue, Sign.apply, value]

@[simp] theorem compare_coe (p q : ℚ) : compare (p : Extended) (q : Extended) = compare p q := by
  rw [← cmp_eq_compare, ← cmp_eq_compare]
  exact WithBotTop.coe_strictMono.cmp_map_eq p q

theorem compare_neg_neg {G : Type} [AddCommGroup G] [LinearOrder G] [IsOrderedAddMonoid G]
    (p q : G) : compare (-p) (-q) = (compare p q).swap := by
  have hanti : StrictAnti fun p : G => -p := fun p q => neg_lt_neg
  rw [← cmp_eq_compare, ← cmp_eq_compare, cmp_swap]
  exact hanti.cmp_map_eq p q

/-- A linear order with a place for every double that is a number. Canonical magnitudes have theirs
on both sides of the two zeros, between the infinities. -/
structure Scale (E : Type) [LinearOrder E] where
  lowest : E
  zero : E
  highest : E
  below : Nat → Int → E
  above : Nat → Int → E
  lowest_lt {m : Nat} {e : Int} (h : Canonical m e) : lowest < below m e
  below_lt {m : Nat} {e : Int} (h : Canonical m e) : below m e < zero
  lt_above {m : Nat} {e : Int} (h : Canonical m e) : zero < above m e
  above_lt {m : Nat} {e : Int} (h : Canonical m e) : above m e < highest
  compare_below {m m' : Nat} {e e' : Int} (h : Canonical m e) (h' : Canonical m' e') :
    compare (below m e) (below m' e') = ((compare e e').then (compare m m')).swap
  compare_above {m m' : Nat} {e e' : Int} (h : Canonical m e) (h' : Canonical m' e') :
    compare (above m e) (above m' e') = (compare e e').then (compare m m')

namespace Scale

variable {E : Type} [LinearOrder E] (scale : Scale E)

def place? : UnpackedFloat → Option E
  | .notANumber => none
  | .infinity .negative => some scale.lowest
  | .infinity .positive => some scale.highest
  | .zero _ => some scale.zero
  | .finite .negative m e _ => some (scale.below m e)
  | .finite .positive m e _ => some (scale.above m e)

theorem canonical_one : Canonical 1 (-1074) :=
  ⟨by decide, by decide, by decide, by decide, .inr rfl⟩

theorem lowest_lt_zero : scale.lowest < scale.zero :=
  (scale.lowest_lt canonical_one).trans (scale.below_lt canonical_one)

theorem zero_lt_highest : scale.zero < scale.highest :=
  (scale.lt_above canonical_one).trans (scale.above_lt canonical_one)

variable {a b : E}

theorem some_lt (h : a < b) : some Ordering.lt = Option.map₂ compare (some a) (some b) :=
  congrArg some (compare_lt_iff_lt.mpr h).symm

theorem some_gt (h : b < a) : some Ordering.gt = Option.map₂ compare (some a) (some b) :=
  congrArg some (compare_gt_iff_gt.mpr h).symm

theorem some_eq (a : E) : some Ordering.eq = Option.map₂ compare (some a) (some a) :=
  congrArg some (compare_eq_iff_eq.mpr rfl).symm

/-- Doubles compare as their places do. -/
theorem compare_place? {u v : UnpackedFloat} (hu : Proper u) (hv : Proper v) :
    u.compare v = Option.map₂ compare (scale.place? u) (scale.place? v) := by
  have hlowest := scale.lowest_lt_zero
  have hhighest := scale.zero_lt_highest
  cases u with
  | notANumber => rfl
  | infinity s =>
    cases v with
    | notANumber => cases s <;> rfl
    | infinity t =>
      cases s with
      | negative =>
        cases t with
        | negative => exact some_eq _
        | positive => exact some_lt (hlowest.trans hhighest)
      | positive =>
        cases t with
        | negative => exact some_gt (hlowest.trans hhighest)
        | positive => exact some_eq _
    | zero t =>
      cases s with
      | negative => exact some_lt hlowest
      | positive => exact some_gt hhighest
    | finite t m e hpos =>
      cases s with
      | negative =>
        cases t with
        | negative => exact some_lt (scale.lowest_lt hv)
        | positive => exact some_lt (hlowest.trans (scale.lt_above hv))
      | positive =>
        cases t with
        | negative => exact some_gt ((scale.below_lt hv).trans hhighest)
        | positive => exact some_gt (scale.above_lt hv)
  | zero s =>
    cases v with
    | notANumber => rfl
    | infinity t =>
      cases t with
      | negative => exact some_gt hlowest
      | positive => exact some_lt hhighest
    | zero t => exact some_eq _
    | finite t m e hpos =>
      cases t with
      | negative => exact some_gt (scale.below_lt hv)
      | positive => exact some_lt (scale.lt_above hv)
  | finite s m e hpos =>
    cases v with
    | notANumber => cases s <;> rfl
    | infinity t =>
      cases s with
      | negative =>
        cases t with
        | negative => exact some_gt (scale.lowest_lt hu)
        | positive => exact some_lt ((scale.below_lt hu).trans hhighest)
      | positive =>
        cases t with
        | negative => exact some_gt (hlowest.trans (scale.lt_above hu))
        | positive => exact some_lt (scale.above_lt hu)
    | zero t =>
      cases s with
      | negative => exact some_lt (scale.below_lt hu)
      | positive => exact some_gt (scale.lt_above hu)
    | finite t m' e' hpos' =>
      cases s with
      | negative =>
        cases t with
        | negative => exact congrArg some (scale.compare_below hu hv).symm
        | positive => exact some_lt ((scale.below_lt hu).trans (scale.lt_above hv))
      | positive =>
        cases t with
        | negative => exact some_gt ((scale.below_lt hv).trans (scale.lt_above hu))
        | positive => exact congrArg some (scale.compare_above hu hv).symm

end Scale

/-- The scale of the numbers that doubles are. -/
def numbers : Scale Extended where
  lowest := ⊥
  zero := ((0 : ℚ) : Extended)
  highest := ⊤
  below m e := ((-value m e : ℚ) : Extended)
  above m e := ((value m e : ℚ) : Extended)
  lowest_lt _ := WithBot.bot_lt_coe _
  below_lt h := WithBotTop.coe_lt_coe.mpr (neg_lt_zero.mpr h.value_pos)
  lt_above h := WithBotTop.coe_lt_coe.mpr h.value_pos
  above_lt _ := WithBot.coe_lt_coe.mpr (WithTop.coe_lt_top _)
  compare_below h h' := by rw [compare_coe, compare_neg_neg, h.compare_value h']
  compare_above h h' := by rw [compare_coe, h.compare_value h']

theorem numberOf?_eq_place? (u : UnpackedFloat) : numberOf? u = numbers.place? u := by
  cases u with
  | notANumber => rfl
  | infinity s => cases s <;> rfl
  | zero s => rfl
  | finite s m e hpos =>
    cases s with
    | positive => exact congrArg (fun q : ℚ => some (q : Extended)) (signedValue_positive m e)
    | negative => exact congrArg (fun q : ℚ => some (q : Extended)) (signedValue_negative m e)

/-- Doubles compare as the numbers they are. -/
theorem compare_numberOf? {u v : UnpackedFloat} (hu : Proper u) (hv : Proper v) :
    u.compare v = Option.map₂ compare (numberOf? u) (numberOf? v) := by
  rw [numberOf?_eq_place?, numberOf?_eq_place?]
  exact numbers.compare_place? hu hv

end Order

section Elements

variable {x y : Float}

theorem number?_zero : number? Arith.zero = some ((0 : ℚ) : Extended) := by
  decide +kernel

theorem number?_nan : number? Scalar.nan = none := by
  decide +kernel

theorem number?_lowest : number? Scalar.lowest = some ⊥ := by
  decide +kernel

theorem number?_highest : number? Scalar.highest = some ⊤ := by
  decide +kernel

theorem compare_toModel (x y : Float) :
    x.toModel.compare y.toModel = Option.map₂ compare (number? x) (number? y) :=
  compare_numberOf? (proper_unpack _) (proper_unpack _)

theorem isNaN_iff : Scalar.isNaN x = true ↔ number? x = none := by
  change x.toModel.unpack.isNaN = true ↔ _
  unfold number?
  cases x.toModel.unpack with
  | notANumber => exact iff_of_true rfl rfl
  | infinity s => cases s <;> simp [UnpackedFloat.isNaN, numberOf?]
  | zero s => simp [UnpackedFloat.isNaN, numberOf?]
  | finite s m e hpos => simp [UnpackedFloat.isNaN, numberOf?]

theorem less_iff {a b : Extended} (hx : number? x = some a) (hy : number? y = some b) :
    Scalar.less x y = true ↔ a < b := by
  have hcompare := compare_toModel x y
  rw [hx, hy, Option.map₂_some_some] at hcompare
  have hless : Scalar.less x y = (x.toModel.compare y.toModel == some .lt) :=
    Bool.decide_eq_true ..
  rw [hless, hcompare, beq_iff_eq, Option.some_inj, compare_lt_iff_lt]

/-- Equal doubles are equal numbers, the two zeros among them. -/
theorem same_iff : Scalar.same x y = true ↔ number? x = number? y ∧ number? x ≠ none := by
  have hsame : Scalar.same x y = (x.toModel.compare y.toModel == some .eq) := rfl
  rw [hsame, compare_toModel, beq_iff_eq]
  cases number? x with
  | none => simp
  | some a =>
    cases number? y with
    | none => simp
    | some b => simp

theorem isZero_iff : Arith.isZero x = true ↔ number? x = some ((0 : ℚ) : Extended) := by
  have hsame : Arith.isZero x = Scalar.same x Arith.zero := rfl
  rw [hsame, same_iff, number?_zero]
  constructor
  · exact And.left
  · intro h
    exact ⟨h, by simp [h]⟩

/-- No other doubles than the two zeros are the same number. -/
theorem number?_eq_iff :
    number? x = number? y ↔ x = y ∨ Arith.isZero x = true ∧ Arith.isZero y = true := by
  constructor
  · intro h
    cases hx : number? x with
    | none =>
      have hnan (z : Float) (hz : number? z = none) : z = Float.nan := by
        have htrue : z.isNaN = true := isNaN_iff.mpr hz
        simpa using htrue
      left
      rw [hnan x hx, hnan y (h ▸ hx)]
    | some a =>
      have hsame : x == y := same_iff.mpr ⟨h, by simp [hx]⟩
      obtain ⟨-, -, heq | ⟨rfl, rfl⟩ | ⟨rfl, rfl⟩⟩ := Float.beq_iff_ne_nan_and_eq.mp hsame
      · exact .inl heq
      · right
        decide +kernel
      · right
        decide +kernel
  · rintro (rfl | ⟨hx, hy⟩)
    · rfl
    · rw [isZero_iff.mp hx, isZero_iff.mp hy]

/-- Of two numbers the test picks the second or keeps the first; there is none if either is none. -/
theorem number?_choose {choose : Extended → Extended → Extended} {second : Bool}
    (h : ∀ a b, number? x = some a → number? y = some b →
      choose a b = if second then b else a) :
    number? (if Scalar.isNaN x || Scalar.isNaN y then Scalar.nan else if second then y else x) =
      Option.map₂ choose (number? x) (number? y) := by
  cases hx : number? x with
  | none =>
    rw [isNaN_iff.mpr hx]
    exact number?_nan
  | some a =>
    have hnumber : Scalar.isNaN x = false := by
      rw [Bool.eq_false_iff, Ne, isNaN_iff, hx]
      exact Option.some_ne_none a
    cases hy : number? y with
    | none =>
      rw [isNaN_iff.mpr hy, Bool.or_true]
      exact number?_nan
    | some b =>
      have hnumber' : Scalar.isNaN y = false := by
        rw [Bool.eq_false_iff, Ne, isNaN_iff, hy]
        exact Option.some_ne_none b
      rw [hnumber, hnumber', Option.map₂_some_some, h a b hx hy]
      cases second with
      | false => exact hx
      | true => exact hy

theorem number?_maximum (x y : Float) :
    number? (ScalarOp.maximum.applyBinary x y) = Option.map₂ max (number? x) (number? y) := by
  apply number?_choose
  intro a b hx hy
  simp only [less_iff hx hy]
  exact max_def_lt a b

theorem number?_minimum (x y : Float) :
    number? (ScalarOp.minimum.applyBinary x y) = Option.map₂ min (number? x) (number? y) := by
  apply number?_choose
  intro a b hx hy
  simp only [less_iff hy hx]
  rw [min_comm]
  exact min_def_lt b a

end Elements

end DenseBench.Double
