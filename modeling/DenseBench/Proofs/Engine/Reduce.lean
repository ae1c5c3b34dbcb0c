import DenseBench.Proofs.Double.Sum

/-!
# Reductions of doubles

The connectives, the extremes and the sum of integers reduce an array to one value, however its cut
was made. The starting value of a connective is not neutral: a fold gives a truth value even where
it has one element only. It is the truth of the elements that neighbouring pieces combine.
-/

namespace DenseBench

section Connectives

variable {α : Type} [Scalar α]

variable {op : α → α → α} {connect : Bool → Bool → Bool} {holds : List α → Bool}

theorem Reduces.eq_ofBool (htruth : ∀ b, Arith.isZero (Scalar.ofBool b : α) = !b)
    (hop : ∀ x y, op x y = Scalar.ofBool (connect (!Arith.isZero x) (!Arith.isZero y)))
    (hsingle : ∀ x, holds [x] = !Arith.isZero x)
    (happend : ∀ xs ys, holds (xs ++ ys) = connect (holds xs) (holds ys)) {xs : List α} {r : α}
    (h : Reduces op (Scalar.ofBool (holds [])) xs r) : r = Scalar.ofBool (holds xs) := by
  -- what a cut gives is a truth value, and it has the truth of the elements that went into it
  induction h with
  | nil => rfl
  | step x h ih => rw [ih, hop, htruth, Bool.not_not, happend, hsingle]
  | join left right ihl ihr =>
    rw [ihl, ihr, hop, htruth, htruth, Bool.not_not, Bool.not_not, happend]

theorem Engine.reduce_connective (engine : Engine) (op : ScalarOp) (connect : Bool → Bool → Bool)
    (holds : List α → Bool) (hidentity : op.identity? = some (Scalar.ofBool (holds []) : α))
    (htruth : ∀ b, Arith.isZero (Scalar.ofBool b : α) = !b)
    (hop : ∀ x y : α,
      op.applyBinary x y = Scalar.ofBool (connect (!Arith.isZero x) (!Arith.isZero y)))
    (hsingle : ∀ x, holds [x] = !Arith.isZero x)
    (happend : ∀ xs ys, holds (xs ++ ys) = connect (holds xs) (holds ys)) (a : NDArray α) :
    engine.reduce op a = .ok (Scalar.ofBool (holds a.data.toList)) := by
  obtain ⟨r, hreduce, hr⟩ := engine.reduces op hidentity a
  rw [hreduce, hr.eq_ofBool htruth hop hsingle happend]

end Connectives

section Extremes

variable {β E : Type} [LinearOrder E] [OrderBot E] {f : β → Option E}

/-- The greatest value of the elements of a list, the least of all values if there are no elements,
and none as soon as one element has none. -/
structure Greatest (f : β → Option E) (xs : List β) (v : Option E) : Prop where
  none_iff : v = none ↔ ∃ x ∈ xs, f x = none
  of_nil : xs = [] → v = some ⊥
  isGreatest : ∀ w, v = some w → xs ≠ [] → IsGreatest {u | ∃ x ∈ xs, f x = some u} w

namespace Greatest

theorem nil (f : β → Option E) : Greatest f [] (some ⊥) := by
  constructor
  · simp
  · intro _
    rfl
  · intro w _ hne
    exact absurd rfl hne

theorem single (f : β → Option E) (x : β) : Greatest f [x] (f x) := by
  constructor
  · simp
  · nofun
  · intro w hw _
    constructor
    · exact ⟨x, List.mem_singleton_self x, hw⟩
    · rintro u ⟨y, hy, hu⟩
      rw [List.mem_singleton.mp hy, hw] at hu
      cases hu
      exact le_rfl

theorem append {xs ys : List β} {v w : Option E} (h : Greatest f xs v) (h' : Greatest f ys w) :
    Greatest f (xs ++ ys) (Option.map₂ max v w) := by
  constructor
  · rw [Option.map₂_eq_none_iff, h.none_iff, h'.none_iff]
    simp [or_and_right, exists_or]
  · intro hnil
    obtain ⟨hxs, hys⟩ := List.append_eq_nil_iff.mp hnil
    rw [h.of_nil hxs, h'.of_nil hys, Option.map₂_some_some, max_self]
  · intro u hu hne
    obtain ⟨a, b, ha, hb, rfl⟩ := Option.map₂_eq_some_iff.mp hu
    -- an empty side has the least value, and the other side is all there is
    rcases eq_or_ne xs [] with rfl | hxs
    · have hbot : a = ⊥ := Option.some_inj.mp (ha.symm.trans (h.of_nil rfl))
      rw [hbot, max_bot_left]
      exact h'.isGreatest b hb hne
    · rcases eq_or_ne ys [] with rfl | hys
      · have hbot : b = ⊥ := Option.some_inj.mp (hb.symm.trans (h'.of_nil rfl))
        rw [hbot, max_bot_right, List.append_nil]
        exact h.isGreatest a ha hxs
      · have hunion : {u | ∃ x ∈ xs ++ ys, f x = some u} =
            {u | ∃ x ∈ xs, f x = some u} ∪ {u | ∃ x ∈ ys, f x = some u} := by
          ext u
          simp [or_and_right, exists_or]
        rw [hunion]
        exact (h.isGreatest a ha hxs).union (h'.isGreatest b hb hys)

theorem unique {xs : List β} {v w : Option E} (h : Greatest f xs v) (h' : Greatest f xs w) :
    v = w := by
  cases v with
  | none => exact (h'.none_iff.mpr (h.none_iff.mp rfl)).symm
  | some a =>
    cases w with
    | none => exact h.none_iff.mpr (h'.none_iff.mp rfl)
    | some b =>
      rcases eq_or_ne xs [] with rfl | hne
      · exact (h.of_nil rfl).trans (h'.of_nil rfl).symm
      · rw [(h.isGreatest a rfl hne).unique (h'.isGreatest b rfl hne)]

end Greatest

/-- An operation that gives the greater of two values finds the greatest on every engine. -/
theorem Engine.exists_greatest {α : Type} [Scalar α] {f : α → Option E} (op : ScalarOp)
    {identity : α} (hidentity : op.identity? = some identity) (hbot : f identity = some ⊥)
    (hop : ∀ x y, f (op.applyBinary x y) = Option.map₂ max (f x) (f y)) (a : NDArray α) :
    ∃ v, (∀ engine : Engine, (engine.reduce op a).map f = .ok v) ∧ Greatest f a.data.toList v := by
  have hevery (engine : Engine) :
      ∃ v, (engine.reduce op a).map f = .ok v ∧ Greatest f a.data.toList v := by
    obtain ⟨r, hreduce, hr⟩ := engine.reduces op hidentity a
    refine ⟨f r, by rw [hreduce]; rfl, ?_⟩
    apply hr.of_join (R := fun xs r => Greatest f xs (f r))
    · rw [hbot]
      exact .nil f
    · exact Greatest.single f
    · intro xs ys r s hxs hys
      rw [hop]
      exact hxs.append hys
  obtain ⟨v, -, hv⟩ := hevery .reference
  refine ⟨v, ?_, hv⟩
  intro engine
  obtain ⟨w, hreduce, hw⟩ := hevery engine
  rw [hreduce, hw.unique hv]

end Extremes

namespace Double

theorem isZero_ofBool (b : Bool) : Arith.isZero (Scalar.ofBool b : Float) = !b := by
  cases b <;> decide +kernel

theorem natAbs_sum_le (zs : List Int) : zs.sum.natAbs ≤ (zs.map Int.natAbs).sum := by
  induction zs with
  | nil => rfl
  | cons z zs ih =>
    rw [List.sum_cons, List.map_cons, List.sum_cons]
    exact (Int.natAbs_add_le z zs.sum).trans (Nat.add_le_add_left ih _)

def integer (z : Int) : Option Extended :=
  some ((z : ℚ) : Extended)

/-- Every sum on the way is an integer within the bound of the whole. -/
theorem number?_of_reduces {xs : List Float} {r : Float} (h : Reduces Scalar.add Arith.zero xs r) :
    ∀ zs : List Int, zs.map integer = xs.map number? → (zs.map Int.natAbs).sum ≤ 2 ^ 53 →
      number? r = integer zs.sum := by
  apply h.of_join (R := fun xs r => ∀ zs : List Int, zs.map integer = xs.map number? →
    (zs.map Int.natAbs).sum ≤ 2 ^ 53 → number? r = integer zs.sum)
  · intro zs hzs hbound
    rw [List.map_eq_nil_iff.mp hzs]
    exact number?_zero
  · intro x zs hzs hbound
    obtain ⟨z, rfl, hz⟩ := List.map_eq_singleton_iff.mp hzs
    rw [← hz, List.sum_singleton]
  · intro xs ys r s ihr ihs zs hzs hbound
    rw [List.map_append] at hzs
    obtain ⟨left, right, rfl, hleft, hright⟩ := List.map_eq_append_iff.mp hzs
    rw [List.map_append, List.sum_append] at hbound
    have hr := ihr left hleft (by omega)
    have hs := ihs right hright (by omega)
    have hsum : (left.sum + right.sum).natAbs ≤ 2 ^ 53 := by
      have hl := natAbs_sum_le left
      have hr := natAbs_sum_le right
      have htriangle := Int.natAbs_add_le left.sum right.sum
      omega
    have hcast : ((left.sum : ℚ) + right.sum) = ((left.sum + right.sum : Int) : ℚ) := by
      push_cast
      rfl
    rw [List.sum_append]
    refine (number?_add hr hs (hcast ▸ isDouble_intCast hsum)).trans ?_
    rw [hcast]
    rfl

theorem nonzero_iff {x : Float} :
    (!Arith.isZero x) = true ↔ number? x ≠ some ((0 : ℚ) : Extended) := by
  rw [Bool.not_eq_true', ← Bool.not_eq_true, isZero_iff]

end Double

open Double

/-- What an array of doubles reduces to, on the reference engine and for every cut of the parallel
one. The extremes and the sum are told as numbers, and of all doubles only the two zeros are one
number (`number?_eq_iff`). -/
theorem Engine.reduce_float (a : NDArray Float) :
    (∀ engine : Engine, engine.reduce .logicalAnd a =
      .ok (if ∀ x ∈ a.data.toList, number? x ≠ some ((0 : ℚ) : Extended) then 1.0 else 0.0)) ∧
    (∀ engine : Engine, engine.reduce .logicalOr a =
      .ok (if ∃ x ∈ a.data.toList, number? x ≠ some ((0 : ℚ) : Extended) then 1.0 else 0.0)) ∧
    (∃ v, (∀ engine : Engine, (engine.reduce .maximum a).map number? = .ok v) ∧
      (v = none ↔ ∃ x ∈ a.data.toList, number? x = none) ∧
      (a.data.toList = [] → v = some ⊥) ∧
      ∀ w, v = some w → a.data.toList ≠ [] →
        IsGreatest {u | ∃ x ∈ a.data.toList, number? x = some u} w) ∧
    (∃ v, (∀ engine : Engine, (engine.reduce .minimum a).map number? = .ok v) ∧
      (v = none ↔ ∃ x ∈ a.data.toList, number? x = none) ∧
      (a.data.toList = [] → v = some ⊤) ∧
      ∀ w, v = some w → a.data.toList ≠ [] →
        IsLeast {u | ∃ x ∈ a.data.toList, number? x = some u} w) ∧
    ∀ zs : List Int, zs.map integer = a.data.toList.map number? →
      (zs.map Int.natAbs).sum ≤ 2 ^ 53 →
        ∀ engine : Engine, (engine.reduce .add a).map number? = .ok (integer zs.sum) := by
  refine ⟨?_, ?_, ?_, ?_, ?_⟩
  · intro engine
    have hall : (a.data.toList.all fun x => !Arith.isZero x) = true ↔
        ∀ x ∈ a.data.toList, number? x ≠ some ((0 : ℚ) : Extended) := by
      rw [List.all_eq_true]
      exact forall₂_congr fun x _ => nonzero_iff
    rw [engine.reduce_connective .logicalAnd and (fun xs => xs.all fun x => !Arith.isZero x) rfl
      isZero_ofBool (fun x y => rfl) (by simp) (by simp)]
    exact congrArg Except.ok (if_congr hall rfl rfl)
  · intro engine
    have hany : (a.data.toList.any fun x => !Arith.isZero x) = true ↔
        ∃ x ∈ a.data.toList, number? x ≠ some ((0 : ℚ) : Extended) := by
      rw [List.any_eq_true]
      exact exists_congr fun x => and_congr_right fun _ => nonzero_iff
    rw [engine.reduce_connective .logicalOr or (fun xs => xs.any fun x => !Arith.isZero x) rfl
      isZero_ofBool (fun x y => rfl) (by simp) (by simp)]
    exact congrArg Except.ok (if_congr hany rfl rfl)
  · obtain ⟨v, hreduce, hv⟩ := exists_greatest .maximum rfl number?_lowest number?_maximum a
    exact ⟨v, hreduce, hv.none_iff, hv.of_nil, hv.isGreatest⟩
  · obtain ⟨v, hreduce, hv⟩ := exists_greatest (E := Extendedᵒᵈ) .minimum rfl number?_highest
      number?_minimum a
    exact ⟨v, hreduce, hv.none_iff, hv.of_nil, hv.isGreatest⟩
  · intro zs hzs hbound engine
    obtain ⟨r, hreduce, hr⟩ := engine.reduces .add rfl a
    rw [hreduce]
    exact congrArg Except.ok (number?_of_reduces hr zs hzs hbound)

namespace Double

/-- Integers, and one of them a zero with a sign. -/
def integers : NDArray Float :=
  ⟨[4], .float64, #[3.0, -5.0, -0.0, 1.0]⟩

theorem reduce_float_integers :
    [3, -5, 0, 1].map integer = integers.data.toList.map number? ∧
      (([3, -5, 0, 1] : List Int).map Int.natAbs).sum ≤ 2 ^ 53 ∧
      (∀ engine : Engine, (engine.reduce .add integers).map number? = .ok (integer (-1))) ∧
      (∀ engine : Engine, (engine.reduce .maximum integers).map number? = .ok (integer 3)) ∧
      IsGreatest {u | ∃ x ∈ integers.data.toList, number? x = some u} ((3 : ℚ) : Extended) := by
  have hnumbers : [3, -5, 0, 1].map integer = integers.data.toList.map number? := by
    decide +kernel
  have hbound : (([3, -5, 0, 1] : List Int).map Int.natAbs).sum ≤ 2 ^ 53 := by decide
  have hmaximum : (Engine.reference.reduce .maximum integers).map number? = .ok (integer 3) := by
    decide +kernel
  obtain ⟨-, -, ⟨v, hreduce, -, -, hgreatest⟩, -, hsum⟩ := Engine.reduce_float integers
  obtain rfl : v = integer 3 := Except.ok.inj ((hreduce .reference).symm.trans hmaximum)
  exact ⟨hnumbers, hbound, hsum _ hnumbers hbound, hreduce, hgreatest _ rfl (by simp [integers])⟩

end Double

end DenseBench
