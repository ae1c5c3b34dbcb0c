import DenseBench.Proofs.Engine.Elementwise

/-!
# Reductions over cuts

A cut folds neighbouring pieces and combines their results. What every cut of a list may give is
told by a relation with one case for each thing that is done, so that what holds of every cut is
proved by induction on it. Adding up truth values is such a case as long as the numbers of them are
exact.
-/

namespace DenseBench

/-- Some cut of the list gives this value. -/
inductive Reduces {β : Type} (op : β → β → β) (identity : β) : List β → β → Prop
  | nil : Reduces op identity [] identity
  | step {xs : List β} {r : β} (x : β) (h : Reduces op identity xs r) :
      Reduces op identity (xs ++ [x]) (op r x)
  | join {xs ys : List β} {r s : β} (left : Reduces op identity xs r)
      (right : Reduces op identity ys s) : Reduces op identity (xs ++ ys) (op r s)

namespace Reduces

variable {β : Type} {op : β → β → β} {identity : β}

theorem foldl (xs : List β) : Reduces op identity xs (xs.foldl op identity) := by
  induction xs using List.reverseRecOn with
  | nil => exact .nil
  | append_singleton xs x ih =>
    rw [List.foldl_append]
    exact ih.step x

/-- A fold adds its elements one by one, as if each were a piece that gives the element itself. -/
theorem of_join {xs : List β} {r : β} (h : Reduces op identity xs r) {R : List β → β → Prop}
    (hnil : R [] identity) (hsingle : ∀ x, R [x] x)
    (hjoin : ∀ xs ys r s, R xs r → R ys s → R (xs ++ ys) (op r s)) : R xs r := by
  induction h with
  | nil => exact hnil
  | step x h ih => exact hjoin _ _ _ _ ih (hsingle x)
  | join left right ihl ihr => exact hjoin _ _ _ _ ihl ihr

end Reduces

namespace Cut

variable {β : Type}

/-- The elements that a piece of so many from `start` on consists of. -/
def window (xs : Array β) (start length : Nat) : List β :=
  (xs.toList.drop start).take length

theorem window_add (xs : Array β) (start left right : Nat) :
    window xs start (left + right) = window xs start left ++ window xs (start + left) right := by
  rw [window, List.take_add, List.drop_drop]
  rfl

theorem window_size (xs : Array β) : window xs 0 xs.size = xs.toList := by
  rw [window, List.drop_zero, ← Array.length_toList, List.take_length]

theorem foldl_window (op : β → β → β) (identity : β) (xs : Array β) (start length : Nat) :
    xs.foldl op identity start (start + length) = (window xs start length).foldl op identity := by
  rw [Array.foldl_eq_foldl_extract, ← Array.foldl_toList, Array.toList_extract,
    List.extract_eq_take_drop, Nat.add_sub_cancel_left]
  rfl

theorem reduces (op : β → β → β) (identity : β) (xs : Array β) (cut : Cut) (start : Nat) :
    Reduces op identity (window xs start cut.length) (cut.reduce op identity xs start) := by
  induction cut generalizing start with
  | piece n =>
    rw [reduce, foldl_window]
    exact .foldl _
  | join l r ihl ihr =>
    rw [reduce, length, window_add]
    exact .join (ihl start) (ihr (start + l.length))

end Cut

theorem Engine.reduces {α : Type} [Scalar α] (engine : Engine) (op : ScalarOp) {identity : α}
    (hop : op.identity? = some identity) (a : NDArray α) :
    ∃ r, engine.reduce op a = .ok r ∧ Reduces op.applyBinary identity a.data.toList r := by
  cases engine with
  | reference =>
    refine ⟨a.data.foldl op.applyBinary identity, by rw [reduce, hop], ?_⟩
    rw [← Array.foldl_toList]
    exact .foldl _
  | parallel schedule =>
    refine ⟨(schedule.cut a.data.size).reduce op.applyBinary identity a.data 0,
      by rw [reduce, hop], ?_⟩
    have hcut := Cut.reduces op.applyBinary identity a.data (schedule.cut a.data.size) 0
    rwa [schedule.cut_length, Cut.window_size] at hcut

/-- Small naturals are elements that add up without loss, and a truth value is one of the first two
of them. Nothing is said of other elements or operations. -/
class CountsExactly (α : Type) [Scalar α] : Prop where
  ofNat_zero : (Scalar.ofNat 0 : α) = Arith.zero
  ofNat_one : (Scalar.ofNat 1 : α) = Arith.one
  add_ofNat (a b : Nat) : a + b ≤ 2 ^ 53 →
    Scalar.add (Scalar.ofNat a : α) (Scalar.ofNat b) = Scalar.ofNat (a + b)
  coerce_ofBool (b : Bool) : Scalar.coerce .bool (Scalar.ofBool b : α) = Scalar.ofBool b

variable {α : Type} [Scalar α]

theorem ScalarOp.exists_test {op : ScalarOp} (hop : op.isPredicate = true) :
    ∃ test : α → α → Bool, ∀ x y, op.applyBinary x y = Scalar.ofBool (test x y) := by
  cases op <;> first | exact ⟨_, fun _ _ => rfl⟩ | exact nomatch hop

variable [CountsExactly α]

/-- A comparison or connective returns an array of truth values. -/
theorem Engine.exists_flags_of_binary {engine : Engine} {op : ScalarOp} {lhs rhs : Operand α}
    {a : NDArray α} (hop : op.isPredicate = true) (h : engine.binary op lhs rhs = .ok a) :
    ∃ flags : List Bool, a.data.toList = flags.map Scalar.ofBool ∧
      NDArray.elementCount a.shape = .ok flags.length := by
  obtain ⟨-, shape, count, -, hcount, rfl⟩ := binary_eq_ok_iff.mp h
  obtain ⟨test, htest⟩ := ScalarOp.exists_test (α := α) hop
  refine ⟨List.ofFn fun i : Fin count => test (lhs.valueAt i) (rhs.valueAt i), ?_, ?_⟩
  · have hdtype : op.resultType lhs.dtype? rhs.dtype? = .bool := if_pos hop
    rw [hdtype, Array.toList_map, combined, Array.toList_ofFn, List.map_ofFn, List.map_ofFn]
    refine congrArg List.ofFn (funext fun i => ?_)
    simp only [Function.comp_apply, htest, CountsExactly.coerce_ofBool]
  · rw [List.length_ofFn]
    exact hcount

theorem ofBool_eq_ofNat (b : Bool) : (Scalar.ofBool b : α) = Scalar.ofNat b.toNat := by
  cases b with
  | false => exact CountsExactly.ofNat_zero.symm
  | true => exact CountsExactly.ofNat_one.symm

theorem Reduces.eq_ofNat_count {xs : List α} {r : α} (h : Reduces Scalar.add Arith.zero xs r) :
    ∀ flags : List Bool, flags.map Scalar.ofBool = xs → flags.length ≤ 2 ^ 53 →
      r = Scalar.ofNat (flags.count true) := by
  apply h.of_join
  · intro flags hflags hfew
    rw [List.map_eq_nil_iff.mp hflags]
    exact CountsExactly.ofNat_zero.symm
  · intro x flags hflags hfew
    obtain ⟨b, rfl, rfl⟩ := List.map_eq_singleton_iff.mp hflags
    rw [ofBool_eq_ofNat]
    cases b <;> rfl
  · intro xs ys r s ihr ihs flags hflags hfew
    obtain ⟨left, right, rfl, hleft, hright⟩ := List.map_eq_append_iff.mp hflags
    have hl := List.count_le_length (a := true) (l := left)
    have hr := List.count_le_length (a := true) (l := right)
    rw [List.length_append] at hfew
    rw [ihr left hleft (by omega), ihs right hright (by omega), List.count_append]
    exact CountsExactly.add_ofNat _ _ (by omega)

/-- The sum of at most `2^53` truth values is the number of true ones, on every engine. -/
theorem Engine.reduce_add_ofBool (engine : Engine) {a : NDArray α} {flags : List Bool}
    (hdata : a.data.toList = flags.map Scalar.ofBool) (hfew : flags.length ≤ 2 ^ 53) :
    engine.reduce .add a = .ok (Scalar.ofNat (flags.count true)) := by
  obtain ⟨r, hreduce, hr⟩ := engine.reduces .add rfl a
  rw [hreduce, hr.eq_ofNat_count flags hdata.symm hfew]

end DenseBench
