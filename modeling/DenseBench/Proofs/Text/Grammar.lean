import DenseBench.Proofs.Text.Numeral
import Mathlib.Data.List.Induction
import Mathlib.Data.List.TakeWhile
import Mathlib.Data.Nat.Digits.Defs

/-!
# Trimmed texts and unsigned numerals

What trimming leaves of a text and which texts are numerals, told without the functions that trim
and read: by the blanks around a text, and by its sign, its digits and their value in base ten.
-/

namespace DenseBench.Text

/-! ## Numerals -/

theorem digitsValue_eq_ofDigits (cs : List Char) :
    digitsValue cs = Nat.ofDigits 10 (cs.reverse.map digitValue) := by
  induction cs using List.reverseRecOn with
  | nil => rfl
  | append_singleton cs c ih =>
    rw [digitsValue_append_singleton, ih, List.reverse_append, List.reverse_singleton,
      List.singleton_append, List.map_cons, Nat.ofDigits_cons]
    exact Nat.add_comm _ _

/-- One digit or more, the last of them worth least. -/
structure IsDigits (cs : List Char) (n : Nat) : Prop where
  nonempty : cs ≠ []
  digits : ∀ c ∈ cs, c.isDigit = true
  value : Nat.ofDigits 10 (cs.reverse.map digitValue) = n

/-- Digits, with or without a plus sign before them. -/
inductive IsNumeral : List Char → Nat → Prop
  | bare {cs : List Char} {n : Nat} (h : IsDigits cs n) : IsNumeral cs n
  | signed {cs : List Char} {n : Nat} (h : IsDigits cs n) : IsNumeral ('+' :: cs) n

theorem readDigits?_eq_some_iff {cs : List Char} {n : Nat} :
    readDigits? cs = some n ↔ IsDigits cs n := by
  constructor
  · intro h
    unfold readDigits? at h
    split at h
    · cases h
    · rename_i hdigits
      rw [Bool.or_eq_true, not_or, List.isEmpty_iff, Bool.not_eq_true', Bool.not_eq_false] at hdigits
      exact ⟨hdigits.1, List.all_eq_true.mp hdigits.2,
        (digitsValue_eq_ofDigits cs).symm.trans (Option.some.inj h)⟩
  · rintro ⟨hne, hdigits, rfl⟩
    rw [readDigits?, List.isEmpty_eq_false_iff.mpr hne, List.all_eq_true.mpr hdigits,
      digitsValue_eq_ofDigits]
    rfl

theorem isNumeral_signed_iff {cs : List Char} {n : Nat} :
    IsNumeral ('+' :: cs) n ↔ IsDigits cs n := by
  constructor
  · intro h
    cases h with
    | bare h => exact absurd (h.digits '+' List.mem_cons_self) (by decide)
    | signed h => exact h
  · exact .signed

theorem isNumeral_bare_iff {cs : List Char} (hsign : ∀ rest, cs ≠ '+' :: rest) {n : Nat} :
    IsNumeral cs n ↔ IsDigits cs n := by
  constructor
  · intro h
    cases h with
    | bare h => exact h
    | signed h => exact absurd rfl (hsign _)
  · exact .bare

theorem readUnsigned?_eq_some_iff {limit n : Nat} {cs : List Char} :
    readUnsigned? limit cs = some n ↔ IsNumeral cs n ∧ n < limit := by
  unfold readUnsigned?
  split
  · rw [isNumeral_signed_iff, Option.filter_eq_some_iff, readDigits?_eq_some_iff,
      decide_eq_true_iff]
  · rename_i hsign
    rw [isNumeral_bare_iff hsign, Option.filter_eq_some_iff, readDigits?_eq_some_iff,
      decide_eq_true_iff]

theorem readUnsigned?_eq_none_iff {limit : Nat} {cs : List Char} :
    readUnsigned? limit cs = none ↔ ∀ n, IsNumeral cs n → limit ≤ n := by
  rw [Option.eq_none_iff_forall_ne_some]
  apply forall_congr'
  intro n
  rw [ne_eq, readUnsigned?_eq_some_iff, not_and, Nat.not_lt]

/-! ## Trimmed texts -/

/-- The inner text begins and ends with no blank, and only blanks stand around it. -/
structure Trims (cs inner : List Char) : Prop where
  around : ∃ before after, cs = before ++ inner ++ after ∧
    (∀ c ∈ before, isBlank c = true) ∧ ∀ c ∈ after, isBlank c = true
  first : ∀ c ∈ inner.head?, isBlank c = false
  last : ∀ c ∈ inner.getLast?, isBlank c = false

theorem isBlank_toLower (c : Char) : isBlank c.toLower = isBlank c := by
  have hletter : ∀ d : Char, 65 ≤ d.toNat → d.toNat ≤ 122 → isBlank d = false := by
    intro d hlow hhigh
    simp [isBlank, blankRanges]
    omega
  by_cases hupper : c.val ≥ 'A'.val ∧ c.val ≤ 'Z'.val
  · have hlow : 65 ≤ c.toNat := UInt32.le_iff_toNat_le.mp hupper.1
    have hhigh : c.toNat ≤ 90 := UInt32.le_iff_toNat_le.mp hupper.2
    have hlower : c.toLower.toNat = c.toNat + 32 := by
      have hshift : c.toLower = ⟨c.val + 32, _⟩ := dif_pos hupper
      rw [hshift]
      change (c.toNat + 32) % 2 ^ 32 = _
      omega
    rw [hletter c hlow (by omega), hletter c.toLower (by omega) (by omega)]
  · have hself : c.toLower = c := dif_neg hupper
    rw [hself]

theorem isBlank_of_mem_head?_dropWhile {cs : List Char} {c : Char}
    (h : c ∈ (cs.dropWhile isBlank).head?) : isBlank c = false := by
  have hhead := List.head?_dropWhile_not isBlank cs
  rwa [Option.mem_def.mp h] at hhead

theorem Trims.trim_eq {cs inner : List Char} (h : Trims cs inner) : trim cs = inner := by
  obtain ⟨before, after, rfl, hbefore, hafter⟩ := h.around
  have hblanks : after.reverse.dropWhile isBlank = [] := by
    rw [List.dropWhile_eq_nil_iff]
    exact fun c hc => hafter c (List.mem_reverse.mp hc)
  rw [trim, trimStart, List.append_assoc, List.dropWhile_append_of_pos hbefore]
  cases inner with
  | nil =>
    rw [List.nil_append, List.dropWhile_eq_nil_iff.mpr hafter]
    rfl
  | cons c inner =>
    rw [List.cons_append, List.dropWhile_cons_of_neg (by rw [h.first c rfl]; decide), trimEnd,
      ← List.cons_append, List.reverse_append,
      List.dropWhile_append_of_pos fun c hc => hafter c (List.mem_reverse.mp hc),
      dropWhile_isBlank_eq_self, List.reverse_reverse]
    rw [List.head?_reverse]
    exact h.last

theorem trims_trim (cs : List Char) : Trims cs (trim cs) := by
  have hstart : cs = cs.takeWhile isBlank ++ trimStart cs := List.takeWhile_append_dropWhile.symm
  have hend : trimStart cs = trim cs ++ ((trimStart cs).reverse.takeWhile isBlank).reverse := by
    rw [trim, trimEnd, ← List.reverse_append, List.takeWhile_append_dropWhile, List.reverse_reverse]
  constructor
  · refine ⟨cs.takeWhile isBlank, ((trimStart cs).reverse.takeWhile isBlank).reverse, ?_,
      fun c hc => List.mem_takeWhile_imp hc, fun c hc => ?_⟩
    · rw [List.append_assoc, ← hend]
      exact hstart
    · exact List.mem_takeWhile_imp (List.mem_reverse.mp hc)
  · intro c hc
    have hfirst : c ∈ (trimStart cs).head? := by
      rw [hend, List.head?_append, Option.mem_def.mp hc]
      rfl
    exact isBlank_of_mem_head?_dropWhile hfirst
  · intro c hc
    rw [trim, trimEnd, List.getLast?_reverse] at hc
    exact isBlank_of_mem_head?_dropWhile hc

theorem Trims.of_not_blank {before inner after : List Char}
    (hbefore : ∀ c ∈ before, isBlank c = true) (hafter : ∀ c ∈ after, isBlank c = true)
    (h : ∀ c ∈ inner, isBlank c = false) : Trims (before ++ inner ++ after) inner where
  around := ⟨before, after, rfl, hbefore, hafter⟩
  first c hc := h c (List.mem_of_mem_head? hc)
  last c hc := h c (List.mem_of_mem_getLast? hc)

theorem trims_iff {cs inner : List Char} : Trims cs inner ↔ trim cs = inner := by
  constructor
  · exact Trims.trim_eq
  · rintro rfl
    exact trims_trim cs

end DenseBench.Text
