import DenseBench.Proofs.Double.Coercion
import DenseBench.Proofs.Double.SingleOrder

/-!
# Coercion as a projection

Coercion takes a double to one that its type holds, and that the type leaves as it is. An integer
type takes the number without its fraction, clamped to the range of the type. The result is exact,
except that no double is the greatest integer of a 64-bit type: the double nearest to it is the next
power of two. Numeric types keep the order of doubles.
-/

namespace DenseBench

/-- The least and the greatest integer of an integer type. -/
def ElementType.integerRange? : ElementType → Option (Int × Int)
  | .int8 => some (-2 ^ 7, 2 ^ 7 - 1)
  | .int16 => some (-2 ^ 15, 2 ^ 15 - 1)
  | .int32 => some (-2 ^ 31, 2 ^ 31 - 1)
  | .int64 => some (-2 ^ 63, 2 ^ 63 - 1)
  | .uint8 => some (0, 2 ^ 8 - 1)
  | .uint16 => some (0, 2 ^ 16 - 1)
  | .uint32 => some (0, 2 ^ 32 - 1)
  | .uint64 => some (0, 2 ^ 64 - 1)
  | .bool | .float32 | .float64 => none

namespace Double

open Decimal

/-! ## The integers of a type -/

def truncate (q : ℚ) : Int :=
  if q < 0 then ⌈q⌉ else ⌊q⌋

/-- The number without its fraction, within bounds. -/
def clampedWhole (lo hi : Int) : Extended → Int
  | ⊥ => lo
  | (q : ℚ) => max lo (min hi (truncate q))
  | ⊤ => hi

/-- The integer that the double nearest to an integer of the type is. -/
def stored (t : ElementType) (n : Int) : Int :=
  match t with
  | .int64 => if n = 2 ^ 63 - 1 then 2 ^ 63 else n
  | .uint64 => if n = 2 ^ 64 - 1 then 2 ^ 64 else n
  | _ => n

theorem truncate_mono {p q : ℚ} (h : p ≤ q) : truncate p ≤ truncate q := by
  unfold truncate
  split
  · rename_i hp
    split
    · exact Int.ceil_mono h
    · rename_i hq
      exact (Int.ceil_le.mpr (by exact_mod_cast hp.le)).trans (Int.floor_nonneg.mpr (not_lt.mp hq))
  · rename_i hp
    rw [if_neg (by linarith)]
    exact Int.floor_mono h

theorem clampedWhole_mono {lo hi : Int} (hrange : lo ≤ hi) {a b : Extended} (h : a ≤ b) :
    clampedWhole lo hi a ≤ clampedWhole lo hi b := by
  induction a using WithBotTop.rec with
  | bot =>
    induction b using WithBotTop.rec with
    | bot => exact le_rfl
    | coe q => exact le_max_left _ _
    | top => exact hrange
  | coe p =>
    induction b using WithBotTop.rec with
    | bot => exact absurd (le_bot_iff.mp h) (WithBotTop.coe_ne_bot p)
    | coe q =>
      exact max_le_max le_rfl (min_le_min le_rfl (truncate_mono (WithBotTop.coe_le_coe.mp h)))
    | top => exact max_le hrange (min_le_left _ _)
  | top =>
    rw [top_le_iff.mp h]

theorem stored_mono (t : ElementType) {m n : Int} (h : m ≤ n) : stored t m ≤ stored t n := by
  cases t with
  | int64 | uint64 =>
    unfold stored
    dsimp only
    split <;> split <;> omega
  | _ => exact h

/-! ## The integer that a double becomes -/

theorem wholePart_eq_floor (m : Nat) (e : Int) : wholePart m e = ⌊value m e⌋₊ := by
  unfold wholePart shiftedRatio
  split
  · rename_i he
    have hexp : e = -((-e).toNat : Int) := by omega
    have hvalue : value m e = (m : ℚ) / (2 ^ (-e).toNat : Nat) := by
      rw [value, hexp, zpow_neg, zpow_natCast, ← hexp, ← div_eq_mul_inv]
      push_cast
      rfl
    rw [hvalue, Nat.floor_div_eq_div, Nat.one_mul]
  · rename_i he
    have hexp : e = ((- -e).toNat : Int) := by omega
    have hvalue : value m e = (m * 2 ^ (- -e).toNat : Nat) := by
      rw [value, hexp, zpow_natCast, ← hexp]
      push_cast
      rfl
    rw [hvalue, Nat.floor_natCast, Nat.div_one]

theorem truncate_withSign (negative : Bool) (m : Nat) (e : Int) :
    truncate (withSign negative (value m e)) = withSign negative (wholePart m e : Int) := by
  have hnonneg : 0 ≤ value m e :=
    mul_nonneg (Nat.cast_nonneg m) (zpow_nonneg (by norm_num) e)
  have hfloor : (wholePart m e : Int) = ⌊value m e⌋ := by
    rw [wholePart_eq_floor, Int.natCast_floor_eq_floor hnonneg]
  rw [hfloor]
  cases negative with
  | false => exact if_neg hnonneg.not_gt
  | true =>
    rcases hnonneg.lt_or_eq with hpos | hzero
    · exact (if_pos (neg_lt_zero.mpr hpos)).trans Int.ceil_neg
    · simp [withSign, truncate, ← hzero]

theorem number?_ofInteger {n : Nat} (h : Representable n) (negative : Bool) :
    number? (ofInteger negative n) = some ((withSign negative (n : ℚ) : ℚ) : Extended) := by
  rcases Nat.eq_zero_or_pos n with rfl | hpos
  · cases negative <;> decide +kernel
  · obtain ⟨m, e, hvalue, hparts⟩ := parts_ofInteger hpos h negative
    rw [number?_eq_parts, hparts, numberOfParts?, hvalue]

theorem number?_bound (t : ElementType) (negative : Bool) :
    number? (ofInteger negative (boundOf (bounds t) negative)) =
      some ((stored t (withSign negative (boundOf (bounds t) negative : Int)) : ℚ) : Extended) := by
  cases t <;> cases negative <;> decide +kernel

theorem stored_of_ne_greatest {t : ElementType} {n : Int} (h : n ≠ (bounds t).2) :
    stored t n = n := by
  cases t with
  | int64 | uint64 => exact if_neg h
  | _ => rfl

theorem stored_of_lt_bound (t : ElementType) {negative : Bool} {n : Nat}
    (h : n < boundOf (bounds t) negative) :
    stored t (withSign negative (n : Int)) = withSign negative (n : Int) := by
  -- a type that goes below zero goes above it
  have hsigned : 0 < (bounds t).1 → 0 < (bounds t).2 := by
    cases t <;> decide
  apply stored_of_ne_greatest
  cases negative with
  | false =>
    change n < (bounds t).2 at h
    change (n : Int) ≠ _
    omega
  | true =>
    change n < (bounds t).1 at h
    change -(n : Int) ≠ _
    have := hsigned (by omega)
    omega

theorem number?_saturate_finite (t : ElementType) {x : Float} {negative : Bool} {m : Nat} {e : Int}
    (h : parts x = .finite negative m e) :
    number? (saturate (bounds t) x) =
      some ((stored t (withSign negative
        (min (wholePart m e) (boundOf (bounds t) negative) : Nat)) : ℚ) : Extended) := by
  rw [saturate_eq, h]
  dsimp only
  rcases Nat.lt_or_ge (wholePart m e) (boundOf (bounds t) negative) with hlt | hge
  · rw [Nat.min_eq_left hlt.le, number?_ofInteger (representable_wholePart h),
      stored_of_lt_bound t hlt]
    cases negative <;> simp [withSign]
  · rw [Nat.min_eq_right hge, number?_bound]

theorem bounds_of_integerRange? {t : ElementType} {lo hi : Int}
    (h : t.integerRange? = some (lo, hi)) :
    lo = -((bounds t).1 : Int) ∧ hi = ((bounds t).2 : Int) := by
  cases t <;> cases h <;> exact ⟨rfl, rfl⟩

theorem roundTo_of_integerRange? {t : ElementType} {range : Int × Int}
    (h : t.integerRange? = some range) (x : Float) : roundTo t x = saturate (bounds t) x := by
  cases t <;> first | rfl | cases h

theorem clamp_withSign (b : Nat × Nat) (negative : Bool) (n : Nat) :
    max (-(b.1 : Int)) (min (b.2 : Int) (withSign negative (n : Int))) =
      withSign negative ((min n (boundOf b negative) : Nat) : Int) := by
  cases negative with
  | false =>
    have hbound : boundOf b false = b.2 := rfl
    simp only [withSign, hbound, Bool.false_eq_true, if_false]
    omega
  | true =>
    have hbound : boundOf b true = b.1 := rfl
    simp only [withSign, hbound, if_true]
    omega

theorem number?_saturate {t : ElementType} {lo hi : Int} (h : t.integerRange? = some (lo, hi))
    {x : Float} {a : Extended} (hx : number? x = some a) :
    number? (saturate (bounds t) x) = some ((stored t (clampedWhole lo hi a) : ℚ) : Extended) := by
  obtain ⟨rfl, rfl⟩ := bounds_of_integerRange? h
  rw [number?_eq_parts] at hx
  cases hparts : parts x with
  | nan =>
    rw [hparts] at hx
    cases hx
  | infinite negative =>
    rw [hparts] at hx
    obtain rfl := Option.some.inj hx
    rw [saturate_eq, hparts, number?_bound]
    cases negative <;> rfl
  | finite negative m e =>
    rw [hparts] at hx
    obtain rfl := Option.some.inj hx
    rw [number?_saturate_finite t hparts, ← clamp_withSign, ← truncate_withSign]
    rfl

theorem saturate_nan (b : Nat × Nat) {x : Float} (h : number? x = none) : saturate b x = 0.0 := by
  rw [number?_eq_parts] at h
  cases hparts : parts x with
  | nan => rw [saturate_eq, hparts]
  | infinite negative =>
    rw [hparts] at h
    cases h
  | finite negative m e =>
    rw [hparts] at h
    cases h

/-- A zero in an integer type has no sign: the negative one is not left as it is. -/
theorem saturate_ne_neg_zero (t : ElementType) (x : Float) : saturate (bounds t) x ≠ -0.0 := by
  intro hsigned
  have hfixed := saturate_saturate t x
  rw [hsigned] at hfixed
  revert hfixed
  cases t <;> decide +kernel

theorem saturate_mono {t : ElementType} {lo hi : Int} (h : t.integerRange? = some (lo, hi))
    {x y : Float} (hle : x ≤ y) : saturate (bounds t) x ≤ saturate (bounds t) y := by
  obtain ⟨a, b, hx, hy, hab⟩ := le_iff_number?.mp hle
  have hrange : lo ≤ hi := by
    obtain ⟨rfl, rfl⟩ := bounds_of_integerRange? h
    omega
  refine le_iff_number?.mpr ⟨_, _, number?_saturate h hx, number?_saturate h hy, ?_⟩
  rw [WithBotTop.coe_le_coe, Int.cast_le]
  exact stored_mono t (clampedWhole_mono hrange hab)

/-! ## All types -/

theorem roundTo_bool_eq (x : Float) :
    roundTo .bool x = if x = 0.0 ∨ x = -0.0 then 0.0 else 1.0 := by
  have hzero : (x == 0.0) = true ↔ x = 0.0 ∨ x = -0.0 := by
    constructor
    · intro h
      obtain ⟨-, -, heq | ⟨heq, -⟩ | ⟨heq, -⟩⟩ := Float.beq_iff_ne_nan_and_eq.mp h
      · exact .inl heq
      · exact .inl heq
      · exact .inr heq
    · rintro (rfl | rfl)
      · decide +kernel
      · decide +kernel
  simp only [roundTo, hzero]

/-- What coercion does to a double, for every type. -/
theorem coerce_projects (t : ElementType) (x : Float) :
    Scalar.coerce t (Scalar.coerce t x) = Scalar.coerce t x ∧
      (∀ lo hi, t.integerRange? = some (lo, hi) →
        (Scalar.isNaN x = true → Scalar.coerce t x = 0.0) ∧
          (∀ a, number? x = some a →
            number? (Scalar.coerce t x) =
              some ((stored t (clampedWhole lo hi a) : ℚ) : Extended)) ∧
          Scalar.coerce t x ≠ -0.0 ∧
          ∀ y, x ≤ y → Scalar.coerce t x ≤ Scalar.coerce t y) ∧
      (t = .bool → Scalar.coerce t x = if x = 0.0 ∨ x = -0.0 then 0.0 else 1.0) ∧
      (t = .float32 → ∀ y, x ≤ y → Scalar.coerce t x ≤ Scalar.coerce t y) := by
  simp only [coerce_eq_roundTo]
  refine ⟨roundTo_roundTo t x, fun lo hi h => ?_, ?_, ?_⟩
  · simp only [roundTo_of_integerRange? h]
    exact ⟨fun hnan => saturate_nan _ (isNaN_iff.mp hnan), fun a ha => number?_saturate h ha,
      saturate_ne_neg_zero t x, fun y hle => saturate_mono h hle⟩
  · rintro rfl
    exact roundTo_bool_eq x
  · rintro rfl y hle
    exact single_mono hle

/-- In the signed type of 64 bits infinity is `2^63`, and what is not a number is zero. -/
theorem coerce_projects_int64 :
    ElementType.integerRange? .int64 = some (-2 ^ 63, 2 ^ 63 - 1) ∧
      number? Scalar.highest = some ⊤ ∧
      number? (Scalar.coerce .int64 Scalar.highest) = some ((2 ^ 63 : ℚ) : Extended) ∧
      Scalar.coerce .int64 Scalar.nan = (0.0 : Float) := by
  have hstored : stored .int64 (clampedWhole (-2 ^ 63) (2 ^ 63 - 1) ⊤) = 2 ^ 63 := by decide
  have hgreatest := ((coerce_projects .int64 Scalar.highest).2.1 _ _ rfl).2.1 ⊤ number?_highest
  rw [hstored] at hgreatest
  refine ⟨rfl, number?_highest, by exact_mod_cast hgreatest, ?_⟩
  exact ((coerce_projects .int64 Scalar.nan).2.1 _ _ rfl).1 (by decide +kernel)

end Double

end DenseBench
