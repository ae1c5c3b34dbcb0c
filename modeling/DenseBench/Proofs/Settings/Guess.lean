import DenseBench.Proofs.Text.Grammar
import DenseBench.Settings.Load

/-!
# What texts of variables are taken for

The numeral of an integer is taken for this integer as long as it is in the signed range. Beyond it,
a numeral is taken for the nearest double. No truth value is a numeral. Where a word is wanted, a text
that is the numeral of one stands for it.
-/

namespace DenseBench.Text

theorem ne_of_isDigit {c d : Char} (hc : c.isDigit = true) (hd : d.isDigit = false) : c ≠ d := by
  rintro rfl
  rw [hc] at hd
  cases hd

theorem toLower_of_isDigit {c : Char} (h : c.isDigit = true) : c.toLower = c := by
  rw [Char.isDigit_iff_toNat] at h
  change 48 ≤ c.toNat ∧ c.toNat ≤ 57 at h
  apply dif_neg
  rintro ⟨hlow, -⟩
  change 65 ≤ c.toNat at hlow
  omega

/-! ## Texts without a sign -/

section

variable {c : Char} {cs : List Char}

theorem readUnsigned?_cons (hplus : c ≠ '+') (limit : Nat) :
    readUnsigned? limit (c :: cs) = (readDigits? (c :: cs)).filter (· < limit) := by
  unfold readUnsigned?
  split
  · rename_i heq
    cases heq
    exact absurd rfl hplus
  · rfl

theorem readInt64?_cons (hminus : c ≠ '-') :
    readInt64? (c :: cs) = (readUnsigned? (2 ^ 63) (c :: cs)).map Int.ofNat := by
  unfold readInt64?
  split
  · rename_i heq
    cases heq
    exact absurd rfl hminus
  · rfl

/-- A text whose first letter is that of no name of a double. -/
theorem readFloat?_cons (hminus : c ≠ '-') (hplus : c ≠ '+') (hinf : c.toLower ≠ 'i')
    (hnan : c.toLower ≠ 'n') :
    Decimal.readFloat? (c :: cs) =
      (Decimal.readScientific? (c :: cs)).map fun p => Decimal.nearest false p.1 p.2 := by
  have hword : ∀ word : String, word.toList.head? ≠ some c.toLower →
      String.ofList ((c :: cs).map Char.toLower) ≠ word := by
    rintro word hword rfl
    rw [String.toList_ofList] at hword
    exact hword rfl
  have hnames : ∀ word ∈ ["inf", "infinity", "nan"],
      String.ofList ((c :: cs).map Char.toLower) ≠ word := by
    intro word hmem
    apply hword
    rcases List.mem_cons.mp hmem with rfl | hmem
    · exact fun heq => hinf (Option.some.inj heq).symm
    rcases List.mem_cons.mp hmem with rfl | hmem
    · exact fun heq => hinf (Option.some.inj heq).symm
    · rw [List.mem_singleton.mp hmem]
      exact fun heq => hnan (Option.some.inj heq).symm
  unfold Decimal.readFloat?
  split
  rename_i negative rest hcut
  obtain ⟨rfl, rfl⟩ : negative = false ∧ rest = c :: cs := by
    split at hcut
    · rename_i heq
      cases heq
      exact absurd rfl hminus
    · rename_i heq
      cases heq
      exact absurd rfl hplus
    · cases hcut
      exact ⟨rfl, rfl⟩
  dsimp only
  rw [if_neg (not_or.mpr ⟨hnames _ (by decide), hnames _ (by decide)⟩), if_neg (hnames _ (by decide))]

end

/-! ## Numerals -/

theorem toList_numeralText (n : Nat) : (numeralText n).toList = numeral n :=
  String.toList_ofList

theorem readUnsigned?_numeral_of_le {limit n : Nat} (h : limit ≤ n) :
    readUnsigned? limit (numeral n) = none := by
  obtain ⟨c, cs, hnumeral, hdigit⟩ := exists_numeral_eq_cons n
  have hread : readDigits? (c :: cs) = some n := by rw [← hnumeral, readDigits?_numeral]
  rw [hnumeral, readUnsigned?_cons (ne_of_isDigit hdigit (by decide)), hread, Option.filter_some,
    if_neg (by simpa using h)]

theorem readInt64?_numeral (n : Nat) :
    readInt64? (numeral n) = (readUnsigned? (2 ^ 63) (numeral n)).map Int.ofNat := by
  obtain ⟨c, cs, hnumeral, hdigit⟩ := exists_numeral_eq_cons n
  rw [hnumeral, readInt64?_cons (ne_of_isDigit hdigit (by decide))]

theorem readInt64?_numeral_of_lt {n : Nat} (h : n < 2 ^ 63) :
    readInt64? (numeral n) = some (n : Int) := by
  rw [readInt64?_numeral, readUnsigned?_numeral h]
  rfl

theorem readInt64?_numeral_of_le {n : Nat} (h : 2 ^ 63 ≤ n) : readInt64? (numeral n) = none := by
  rw [readInt64?_numeral, readUnsigned?_numeral_of_le h]
  rfl

theorem readInt64?_integerText {n : Int} (hlow : -2 ^ 63 ≤ n) (hhigh : n < 2 ^ 63) :
    readInt64? (integerText n).toList = some n := by
  cases n with
  | ofNat n =>
    rw [integerText, toList_numeralText]
    exact readInt64?_numeral_of_lt (Int.ofNat_lt.mp hhigh)
  | negSucc n =>
    have hlist : (integerText (.negSucc n)).toList = '-' :: numeral (n + 1) := by
      rw [integerText, String.toList_append, toList_numeralText]
      rfl
    have hle : n + 1 ≤ 2 ^ 63 := by omega
    rw [hlist, readInt64?, readDigits?_numeral, Option.filter_some, if_pos (by simpa using hle)]
    rfl

theorem readInt64?_bounds {cs : List Char} {n : Int} (h : readInt64? cs = some n) :
    -2 ^ 63 ≤ n ∧ n < 2 ^ 63 := by
  unfold readInt64? at h
  split at h
  · obtain ⟨k, hk, rfl⟩ := Option.map_eq_some_iff.mp h
    obtain ⟨m, hm, hk⟩ := Option.bind_eq_some_iff.mp hk
    obtain rfl : (m : Int) = k := Option.some.inj hk
    have hle : m ≤ 2 ^ 63 := of_decide_eq_true (Option.filter_eq_some_iff.mp hm).2
    omega
  · obtain ⟨k, hk, rfl⟩ := Option.map_eq_some_iff.mp h
    have hlt := (readUnsigned?_eq_some_iff.mp hk).2
    change -2 ^ 63 ≤ (k : Int) ∧ (k : Int) < 2 ^ 63
    omega

theorem readScientific?_numeral (n : Nat) : Decimal.readScientific? (numeral n) = some (n, 0) := by
  have htake : (numeral n).takeWhile Char.isDigit = numeral n :=
    List.takeWhile_eq_self_iff.mpr fun c hc => isDigit_of_mem_numeral hc
  have hdrop : (numeral n).dropWhile Char.isDigit = [] :=
    List.dropWhile_eq_nil_iff.mpr fun c hc => isDigit_of_mem_numeral hc
  have hne : (numeral n).isEmpty = false := List.isEmpty_eq_false_iff.mpr (numeral_ne_nil n)
  simp [Decimal.readScientific?, htake, hdrop, hne, digitsValue_numeral]

theorem readFloat?_numeral (n : Nat) :
    Decimal.readFloat? (numeral n) = some (Decimal.nearest false n 0) := by
  obtain ⟨c, cs, hnumeral, hdigit⟩ := exists_numeral_eq_cons n
  have hlower : ∀ d : Char, d.isDigit = false → c.toLower ≠ d := by
    intro d hd
    rw [toLower_of_isDigit hdigit]
    exact ne_of_isDigit hdigit hd
  rw [hnumeral, readFloat?_cons (ne_of_isDigit hdigit (by decide))
    (ne_of_isDigit hdigit (by decide)) (hlower _ (by decide)) (hlower _ (by decide)), ← hnumeral,
    readScientific?_numeral]
  rfl

end DenseBench.Text

namespace DenseBench.Settings

open Text

/-! ## Truth values -/

/-- The text is a truth value in any letter case. -/
def IsTruth (s : String) : Prop :=
  lower s.toList = "true".toList ∨ lower s.toList = "false".toList

/-- The letters that truth values begin with. -/
def BeginsTruth (c : Char) : Prop :=
  c.toLower = 't' ∨ c.toLower = 'f'

instance : DecidablePred BeginsTruth :=
  fun c => inferInstanceAs (Decidable (c.toLower = 't' ∨ c.toLower = 'f'))

namespace BeginsTruth

variable {c : Char}

theorem ne (h : BeginsTruth c) {d : Char} (hd : ¬ BeginsTruth d) : c ≠ d := by
  rintro rfl
  exact hd h

theorem toLower_ne (h : BeginsTruth c) {d : Char} (hd : ¬ (d = 't' ∨ d = 'f')) :
    c.toLower ≠ d := by
  rintro rfl
  exact hd h

theorem isDigit_eq_false (h : BeginsTruth c) : c.isDigit = false := by
  rw [← Bool.not_eq_true]
  intro hdigit
  rw [BeginsTruth, toLower_of_isDigit hdigit] at h
  rcases h with rfl | rfl <;> exact absurd hdigit (by decide)

theorem readScientific?_eq_none (h : BeginsTruth c) (cs : List Char) :
    Decimal.readScientific? (c :: cs) = none := by
  have hdigit : ¬ c.isDigit = true := by
    rw [h.isDigit_eq_false]
    exact Bool.false_ne_true
  unfold Decimal.readScientific?
  dsimp only
  rw [List.takeWhile_cons_of_neg hdigit, List.dropWhile_cons_of_neg hdigit]
  split
  · rename_i heq
    cases heq
    exact absurd h (by decide)
  · rfl

end BeginsTruth

namespace IsTruth

variable {s : String}

theorem exists_cons (h : IsTruth s) : ∃ c cs, s.toList = c :: cs ∧ BeginsTruth c := by
  unfold IsTruth lower at h
  cases hs : s.toList with
  | nil =>
    rw [hs] at h
    rcases h with h | h <;> cases h
  | cons c cs =>
    refine ⟨c, cs, rfl, ?_⟩
    rw [hs, List.map_cons] at h
    have hhead : (if c = kelvinSign then 'k' else c.toLower) = 't' ∨
        (if c = kelvinSign then 'k' else c.toLower) = 'f' :=
      h.imp (fun h => (List.cons.inj h).1) fun h => (List.cons.inj h).1
    split at hhead
    · rcases hhead with h | h <;> exact absurd h (by decide)
    · exact hhead

theorem readInt64?_eq_none (h : IsTruth s) : readInt64? s.toList = none := by
  obtain ⟨c, cs, hs, hc⟩ := h.exists_cons
  have hdigits : readDigits? (c :: cs) = none := by
    simp [readDigits?, hc.isDigit_eq_false]
  rw [hs, readInt64?_cons (hc.ne (by decide)), readUnsigned?_cons (hc.ne (by decide)), hdigits]
  rfl

theorem readFloat?_eq_none (h : IsTruth s) : Decimal.readFloat? s.toList = none := by
  obtain ⟨c, cs, hs, hc⟩ := h.exists_cons
  rw [hs, readFloat?_cons (hc.ne (by decide)) (hc.ne (by decide)) (hc.toLower_ne (by decide))
    (hc.toLower_ne (by decide)), hc.readScientific?_eq_none]
  rfl

end IsTruth

/-! ## Values of variables -/

theorem variableValue_of_isTruth {s : String} (h : IsTruth s) : ∃ b, variableValue s = .bool b := by
  rcases h with htrue | hfalse
  · exact ⟨true, if_pos htrue⟩
  · have hne : lower s.toList ≠ "true".toList := by
      rw [hfalse]
      decide
    exact ⟨false, (if_neg hne).trans (if_pos hfalse)⟩

theorem variableValue_of_not_isTruth {s : String} (h : ¬ IsTruth s) :
    variableValue s = match readInt64? s.toList with
      | some n => .int n
      | none => match Decimal.readFloat? s.toList with
        | some x => .float x
        | none => .text s := by
  obtain ⟨htrue, hfalse⟩ := not_or.mp h
  exact (if_neg htrue).trans (if_neg hfalse)

theorem variableValue_of_readInt64? {s : String} {n : Int} (h : readInt64? s.toList = some n) :
    variableValue s = .int n := by
  have htruth : ¬ IsTruth s := by
    intro htruth
    rw [htruth.readInt64?_eq_none] at h
    cases h
  rw [variableValue_of_not_isTruth htruth, h]

theorem variableValue_of_readFloat? {s : String} {x : Float} (hint : readInt64? s.toList = none)
    (h : Decimal.readFloat? s.toList = some x) : variableValue s = .float x := by
  have htruth : ¬ IsTruth s := by
    intro htruth
    rw [htruth.readFloat?_eq_none] at h
    cases h
  rw [variableValue_of_not_isTruth htruth, hint, h]

/-! ## Texts that stand for words -/

theorem exists_cons_of_isNumeral {cs : List Char} {n : Nat} (h : IsNumeral cs n) :
    ∃ c rest, cs = c :: rest ∧ lower [c] = [c] ∧ (c.isDigit || c == '+') = true := by
  cases h with
  | bare h =>
    obtain ⟨c, rest, rfl⟩ := List.exists_cons_of_ne_nil h.nonempty
    have hdigit := h.digits c List.mem_cons_self
    have hkelvin : c ≠ kelvinSign := ne_of_isDigit hdigit (by decide)
    refine ⟨c, rest, rfl, ?_, by rw [hdigit, Bool.true_or]⟩
    rw [lower, List.map_singleton, if_neg hkelvin, toLower_of_isDigit hdigit]
  | signed h => exact ⟨'+', _, rfl, by decide, by decide⟩

/-- No word that stands for a truth value begins as a numeral does. -/
theorem truthWords_lookup_eq_none {s : String} {n : Nat} (h : IsNumeral s.toList n) :
    Tree.truthWords.lookup (lowerKey s) = none := by
  obtain ⟨c, rest, hs, hlower, hfirst⟩ := exists_cons_of_isNumeral h
  have hhead : (lowerKey s).toList.head? = some c := by
    rw [lowerKey, String.toList_ofList, hs, lower, List.map_cons, List.head?_cons]
    exact congrArg some (List.cons.inj hlower).1
  have hwords : ∀ word ∈ Tree.truthWords,
      word.1.toList.head?.all (fun d => !(d.isDigit || d == '+')) = true := by decide
  rw [List.lookup_eq_none_iff]
  intro word hword
  rw [bne_iff_ne]
  intro heq
  have hnot := hwords word hword
  rw [← heq, hhead, Option.all_some, hfirst] at hnot
  cases hnot

theorem Tree.wordOfText?_of_isNumeral {s : String} {n : Nat} (h : IsNumeral s.toList n)
    (hlt : n < wordLimit) : Tree.wordOfText? s = some n := by
  rw [wordOfText?, truthWords_lookup_eq_none h]
  exact readUnsigned?_eq_some_iff.mpr ⟨h, hlt⟩

end DenseBench.Settings
