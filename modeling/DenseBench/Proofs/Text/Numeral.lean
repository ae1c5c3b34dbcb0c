import DenseBench.Text.Character
import DenseBench.Text.Numeral

/-!
# Numerals read back

The numeral written for a natural is one digit or more, stands for this natural, and holds no
character that another reader of it would take for a blank, a sign or a separator.
-/

namespace DenseBench.Text

theorem toNat_digitChar (d : Nat) : (digitChar d).toNat = 48 + d % 10 := by
  have hdigits : ∀ r : Fin 10, (Char.ofNat (48 + r)).toNat = 48 + r := by decide
  exact hdigits ⟨d % 10, Nat.mod_lt d (by decide)⟩

theorem digitValue_digitChar (d : Nat) : digitValue (digitChar d) = d % 10 := by
  rw [digitValue, toNat_digitChar, Nat.add_sub_cancel_left]

theorem isDigit_digitChar (d : Nat) : (digitChar d).isDigit = true := by
  rw [Char.isDigit_iff_toNat, toNat_digitChar]
  change 48 ≤ 48 + d % 10 ∧ 48 + d % 10 ≤ 57
  omega

theorem numeral_ne_nil (n : Nat) : numeral n ≠ [] := by
  unfold numeral
  split <;> simp

theorem isDigit_of_mem_numeral {n : Nat} {c : Char} (h : c ∈ numeral n) : c.isDigit = true := by
  induction n using numeral.induct with
  | case1 n hn =>
    rw [numeral, if_pos hn, List.mem_singleton] at h
    rw [h]
    exact isDigit_digitChar n
  | case2 n hn ih =>
    rw [numeral, if_neg hn, List.mem_append, List.mem_singleton] at h
    rcases h with h | rfl
    · exact ih h
    · exact isDigit_digitChar (n % 10)

theorem exists_numeral_eq_cons (n : Nat) :
    ∃ c cs, numeral n = c :: cs ∧ c.isDigit = true := by
  obtain ⟨c, cs, hnumeral⟩ := List.exists_cons_of_ne_nil (numeral_ne_nil n)
  exact ⟨c, cs, hnumeral, isDigit_of_mem_numeral (hnumeral ▸ List.mem_cons_self)⟩

theorem digitsValue_append_singleton (cs : List Char) (c : Char) :
    digitsValue (cs ++ [c]) = 10 * digitsValue cs + digitValue c := by
  simp [digitsValue]

theorem digitsValue_numeral (n : Nat) : digitsValue (numeral n) = n := by
  induction n using numeral.induct with
  | case1 n hn =>
    rw [numeral, if_pos hn]
    change 10 * 0 + digitValue (digitChar n) = n
    rw [digitValue_digitChar]
    omega
  | case2 n hn ih =>
    rw [numeral, if_neg hn, digitsValue_append_singleton, ih, digitValue_digitChar]
    omega

theorem readDigits?_numeral (n : Nat) : readDigits? (numeral n) = some n := by
  have hall : (numeral n).all Char.isDigit = true :=
    List.all_eq_true.mpr fun c hc => isDigit_of_mem_numeral hc
  rw [readDigits?, hall, List.isEmpty_eq_false_iff.mpr (numeral_ne_nil n), digitsValue_numeral]
  rfl

theorem readUnsigned?_numeral {limit n : Nat} (h : n < limit) :
    readUnsigned? limit (numeral n) = some n := by
  unfold readUnsigned?
  split
  · rename_i rest hplus
    have hdigit : '+'.isDigit = true := isDigit_of_mem_numeral (n := n) (by simp [hplus])
    exact absurd hdigit (by decide)
  · simp [readDigits?_numeral, h]

theorem length_numeral_le {width n : Nat} (hwidth : 0 < width) (h : n < 10 ^ width) :
    (numeral n).length ≤ width := by
  induction n using numeral.induct generalizing width with
  | case1 n hn =>
    rw [numeral, if_pos hn]
    exact hwidth
  | case2 n hn ih =>
    obtain ⟨w, rfl⟩ : ∃ w, width = w + 1 := ⟨width - 1, by omega⟩
    rw [numeral, if_neg hn, List.length_append, List.length_singleton]
    have hsmall : n / 10 < 10 ^ w := Nat.div_lt_of_lt_mul (by rwa [Nat.pow_succ'] at h)
    have hpos : 0 < w := by
      rcases Nat.eq_zero_or_pos w with rfl | hpos
      · omega
      · exact hpos
    exact Nat.succ_le_succ (ih hpos hsmall)

theorem head?_numeral_ne_zero {n : Nat} (h : 0 < n) : (numeral n).head? ≠ some '0' := by
  induction n using numeral.induct with
  | case1 n hn =>
    rw [numeral, if_pos hn]
    intro hzero
    have hvalue := digitValue_digitChar n
    rw [Option.some.inj hzero] at hvalue
    change 0 = n % 10 at hvalue
    omega
  | case2 n hn ih =>
    rw [numeral, if_neg hn, List.head?_append,
      Option.or_of_isSome (List.isSome_head?.mpr (numeral_ne_nil (n / 10)))]
    exact ih (by omega)

theorem eq_nil_of_numeral_eq_zero_cons {n : Nat} {cs : List Char} (h : numeral n = '0' :: cs) :
    cs = [] := by
  rcases Nat.eq_zero_or_pos n with rfl | hpos
  · have hzero : numeral 0 = [digitChar 0] := by
      rw [numeral]
      rfl
    exact (List.cons.inj (hzero.symm.trans h)).2.symm
  · exact absurd (by rw [h]; rfl) (head?_numeral_ne_zero hpos)

theorem isDigit_of_mem_padded {width n : Nat} {c : Char} (h : c ∈ padded width n) :
    c.isDigit = true := by
  rcases List.mem_append.mp h with hzero | hdigit
  · rw [List.eq_of_mem_replicate hzero]
    decide
  · exact isDigit_of_mem_numeral hdigit

theorem padded_ne_nil (width n : Nat) : padded width n ≠ [] := by
  simp [padded, numeral_ne_nil]

theorem length_padded {width n : Nat} (hwidth : 0 < width) (h : n < 10 ^ width) :
    (padded width n).length = width := by
  have := length_numeral_le hwidth h
  simp [padded]
  omega

theorem digitsValue_padded (width n : Nat) : digitsValue (padded width n) = n := by
  have hzeros : ∀ (k : Nat) (ds : List Char),
      digitsValue (List.replicate k '0' ++ ds) = digitsValue ds := by
    intro k ds
    induction k with
    | zero => rfl
    | succ k ih => exact ih
  rw [padded, hzeros, digitsValue_numeral]

theorem takeWhile_isDigit_append {ds rest : List Char} (hds : ∀ c ∈ ds, c.isDigit = true)
    (hrest : rest.head?.any Char.isDigit = false) :
    (ds ++ rest).takeWhile Char.isDigit = ds := by
  rw [List.takeWhile_append_of_pos hds]
  cases rest with
  | nil => exact List.append_nil ds
  | cons c rest => simp_all

theorem dropWhile_isDigit_append {ds rest : List Char} (hds : ∀ c ∈ ds, c.isDigit = true)
    (hrest : rest.head?.any Char.isDigit = false) :
    (ds ++ rest).dropWhile Char.isDigit = rest := by
  rw [List.dropWhile_append_of_pos hds]
  cases rest with
  | nil => rfl
  | cons c rest => simp_all

theorem isBlank_of_isDigit {c : Char} (h : c.isDigit = true) : isBlank c = false := by
  rw [Char.isDigit_iff_toNat] at h
  change 48 ≤ c.toNat ∧ c.toNat ≤ 57 at h
  simp [isBlank, blankRanges]
  omega

theorem dropWhile_isBlank_eq_self {cs : List Char} (h : ∀ c ∈ cs.head?, isBlank c = false) :
    cs.dropWhile isBlank = cs := by
  cases cs with
  | nil => rfl
  | cons c cs => exact trimStart_eq_self (h c rfl)

theorem trim_eq_self {cs : List Char} (h : ∀ c ∈ cs, isBlank c = false) : trim cs = cs := by
  have hstart : ∀ ds : List Char, (∀ c ∈ ds, isBlank c = false) → ds.dropWhile isBlank = ds :=
    fun ds hds => dropWhile_isBlank_eq_self fun c hc => hds c (List.mem_of_mem_head? hc)
  rw [trim, trimStart, hstart cs h, trimEnd, hstart cs.reverse, List.reverse_reverse]
  intro c hc
  exact h c (List.mem_reverse.mp hc)

end DenseBench.Text
