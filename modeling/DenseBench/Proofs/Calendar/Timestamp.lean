import DenseBench.Calendar.Timestamp
import DenseBench.Proofs.Calendar.Date
import DenseBench.Proofs.Text.Numeral

/-!
# Timestamps read back

The text that a document holds for a moment is read as that moment, for years of any sign and
length and fractions of 0, 3, 6 or 9 digits.
-/

namespace DenseBench.Calendar.Timestamp

open Text

/-- Moments that a timestamp can hold: the year is one that a date can have, and the second is no
leap second. -/
structure IsHeld (t : Timestamp) : Prop where
  year : isYear (Date.ofDays (t.seconds.fdiv secondsPerDay)).year = true
  nanos : t.nanos < nanosPerSecond

theorem trimStart_append_of_isDigit {ds rest : List Char} (hne : ds ≠ [])
    (hds : ∀ c ∈ ds, c.isDigit = true) : trimStart (ds ++ rest) = ds ++ rest := by
  cases ds with
  | nil => exact absurd rfl hne
  | cons d ds => exact trimStart_eq_self (isBlank_of_isDigit (hds d List.mem_cons_self))

/-- Digits are read as far as the width goes; fewer are read if something else follows. -/
theorem readNumber?_append {ds rest : List Char} {width : Nat} (hne : ds ≠ [])
    (hds : ∀ c ∈ ds, c.isDigit = true)
    (hwidth : ds.length = width ∨ ds.length ≤ width ∧ rest.head?.any Char.isDigit = false) :
    readNumber? width (ds ++ rest) = some (digitsValue ds, rest) := by
  have htake : ((ds ++ rest).takeWhile Char.isDigit).take width = ds := by
    rcases hwidth with rfl | ⟨hle, hrest⟩
    · rw [List.takeWhile_append_of_pos hds, List.take_left]
    · rw [takeWhile_isDigit_append hds hrest, List.take_of_length_le hle]
  unfold readNumber?
  simp only [trimStart_append_of_isDigit hne hds, htake, List.isEmpty_eq_false_iff.mpr hne,
    List.drop_left, Bool.false_eq_true, if_false]

theorem readNumber?_padded {width n : Nat} (hwidth : 0 < width) (hn : n < 10 ^ width)
    (rest : List Char) : readNumber? width (padded width n ++ rest) = some (n, rest) := by
  rw [readNumber?_append (padded_ne_nil width n) (fun c hc => isDigit_of_mem_padded hc)
    (.inl (length_padded hwidth hn)), digitsValue_padded]

theorem readNumber?_two {n : Nat} (hn : n < 100) (rest : List Char) :
    readNumber? 2 (padded 2 n ++ rest) = some (n, rest) :=
  readNumber?_padded (by decide) hn rest

theorem readNumber?_signedYear (n : Nat) {rest : List Char}
    (hrest : rest.head?.any Char.isDigit = false) :
    readNumber? (padded 4 n ++ rest).length (padded 4 n ++ rest) = some (n, rest) := by
  rw [readNumber?_append (padded_ne_nil 4 n) (fun c hc => isDigit_of_mem_padded hc)
    (.inr ⟨by simp, hrest⟩), digitsValue_padded]

theorem head?_padded_append (width n : Nat) (rest : List Char) :
    ∃ c cs, padded width n ++ rest = c :: cs ∧ c.isDigit = true := by
  cases hpadded : padded width n with
  | nil => exact absurd hpadded (padded_ne_nil width n)
  | cons c cs =>
    have hc : c ∈ padded width n := hpadded ▸ List.mem_cons_self
    exact ⟨c, cs ++ rest, rfl, isDigit_of_mem_padded hc⟩

theorem readYear?_unsigned {c : Char} {cs : List Char} (hc : c.isDigit = true) :
    readYear? (c :: cs) = (readNumber? 4 (c :: cs)).map fun r => ((r.1 : Int), r.2) := by
  unfold readYear?
  rw [trimStart_eq_self (isBlank_of_isDigit hc)]
  split
  · rename_i heq
    cases heq
    cases hc
  · rename_i heq
    cases heq
    cases hc
  · rfl

theorem readYear?_yearText (year : Int) (rest : List Char) :
    readYear? (yearText year ++ '-' :: rest) = some (year, '-' :: rest) := by
  have hstop : ('-' :: rest).head?.any Char.isDigit = false := rfl
  by_cases hfour : 0 ≤ year ∧ year ≤ 9999
  · rw [yearText, if_pos hfour]
    obtain ⟨c, cs, htext, hc⟩ := head?_padded_append 4 year.toNat ('-' :: rest)
    rw [htext, readYear?_unsigned hc, ← htext, readNumber?_padded (by decide) (by omega)]
    simp [hfour.1]
  · obtain ⟨c, cs, htext, hc⟩ := head?_padded_append 4 year.natAbs ('-' :: rest)
    have hread := readNumber?_signedYear year.natAbs hstop
    rw [htext] at hread
    rw [yearText, if_neg hfour]
    by_cases hneg : year < 0
    · rw [if_pos hneg, List.cons_append, htext, readYear?, trimStart_eq_self (by decide)]
      simp only [List.head?_cons, Option.any_some, hc, if_true, hread, Option.map_some]
      congr 2
      omega
    · rw [if_neg hneg, List.cons_append, htext, readYear?, trimStart_eq_self (by decide)]
      simp only [List.head?_cons, Option.any_some, hc, if_true, hread, Option.map_some]
      congr 2
      omega

/-- A year in front keeps a mark of the byte order away from the start of a text. -/
theorem head?_yearText_append (year : Int) (rest : List Char) :
    (yearText year ++ rest).head? ≠ some '\ufeff' := by
  unfold yearText
  split
  · obtain ⟨c, cs, htext, hc⟩ := head?_padded_append 4 year.toNat rest
    rw [htext, List.head?_cons]
    rintro ⟨⟩
    exact absurd hc (by decide)
  · split
    · rw [List.cons_append, List.head?_cons]
      decide
    · rw [List.cons_append, List.head?_cons]
      decide

theorem isBlank_hyphen : isBlank '-' = false := by decide

theorem isBlank_colon : isBlank ':' = false := by decide

theorem readMark?_cons {mark : Char} (h : isBlank mark = false) (rest : List Char) :
    readMark? mark (mark :: rest) = some rest := by
  rw [readMark?, trimStart_eq_self h]
  exact if_pos rfl

theorem readFraction?_digits {places n : Nat} (hplaces : 0 < places) (hle : places ≤ 9)
    (hn : n < 10 ^ places) {rest : List Char} (hrest : rest.head?.any Char.isDigit = false) :
    readFraction? ('.' :: padded places n ++ rest) = some (n * 10 ^ (9 - places), rest) := by
  have hdigits : ∀ c ∈ padded places n, c.isDigit = true := fun c hc => isDigit_of_mem_padded hc
  have hlength := length_padded hplaces hn
  have htake : (padded places n).take 9 = padded places n :=
    List.take_of_length_le (by omega)
  unfold readFraction?
  simp only [List.cons_append, takeWhile_isDigit_append hdigits hrest,
    dropWhile_isDigit_append hdigits hrest, htake, hlength, digitsValue_padded,
    List.isEmpty_eq_false_iff.mpr (padded_ne_nil places n), Bool.false_eq_true, if_false]

theorem readFraction?_fractionText {nanos : Nat} (h : nanos < nanosPerSecond) {c : Char}
    {rest : List Char} (hc : c.isDigit = false) (hpoint : c ≠ '.') :
    readFraction? (fractionText nanos ++ c :: rest) = some (nanos, c :: rest) := by
  change nanos < 1000000000 at h
  have hstop : (c :: rest).head?.any Char.isDigit = false := hc
  unfold fractionText
  split
  · rename_i hzero
    subst hzero
    unfold readFraction?
    split
    · rename_i heq
      cases heq
      exact absurd rfl hpoint
    · rfl
  · split
    · rename_i hmillis
      rw [readFraction?_digits (by decide) (by decide) (by omega) hstop]
      congr 2
      omega
    · split
      · rename_i hmicros
        rw [readFraction?_digits (by decide) (by decide) (by omega) hstop]
        congr 2
        omega
      · rw [readFraction?_digits (by decide) (by decide) (by omega) hstop]
        simp

theorem ofLocal?_ofDays {t : Timestamp} (h : t.IsHeld) {second : Nat}
    (hsecond : second = (t.seconds.fmod secondsPerDay).toNat) :
    ofLocal? (Date.ofDays (t.seconds.fdiv secondsPerDay)) (second / 3600) (second / 60 % 60)
      (second % 60) t.nanos 0 = some t := by
  have hnonneg : 0 ≤ t.seconds.fmod secondsPerDay := Int.fmod_nonneg_of_pos _ (by decide)
  have hlt : t.seconds.fmod secondsPerDay < secondsPerDay := Int.fmod_lt_of_pos _ (by decide)
  have hsplit : t.seconds.fdiv secondsPerDay * secondsPerDay + t.seconds.fmod secondsPerDay =
      t.seconds := by
    rw [Int.mul_comm]
    exact Int.mul_fdiv_add_fmod t.seconds secondsPerDay
  have hday : second < 86400 := by
    change t.seconds.fmod secondsPerDay < 86400 at hlt
    omega
  have htime : (((second / 3600 : Nat) : Int) * 60 + (second / 60 % 60 : Nat)) * 60 +
      (second % 60 : Nat) = t.seconds.fmod secondsPerDay := by omega
  have htotal : t.seconds.fdiv secondsPerDay * secondsPerDay +
      ((((second / 3600 : Nat) : Int) * 60 + (second / 60 % 60 : Nat)) * 60 +
        (second % 60 : Nat)) - 0 = t.seconds := by
    rw [htime, Int.sub_zero, hsplit]
  have hminute : ¬ second % 60 = 60 := by omega
  unfold ofLocal?
  simp only [Date.toDays_ofDays, Date.isValid_ofDays, h.year, hminute, if_false, htotal]
  simp [secondsPerDay]
  omega

theorem ofText?_documentText {t : Timestamp} (h : t.IsHeld) :
    ofText? t.documentText = some t := by
  obtain ⟨date, hdate⟩ : ∃ date, date = Date.ofDays (t.seconds.fdiv secondsPerDay) := ⟨_, rfl⟩
  obtain ⟨second, hsecond⟩ : ∃ second, second = (t.seconds.fmod secondsPerDay).toNat := ⟨_, rfl⟩
  have hlt : t.seconds.fmod secondsPerDay < secondsPerDay := Int.fmod_lt_of_pos _ (by decide)
  have hday : second < 86400 := by
    change t.seconds.fmod secondsPerDay < 86400 at hlt
    omega
  obtain ⟨hmonth, hdayOfMonth⟩ := Date.lt_of_isValid (hdate ▸ Date.isValid_ofDays _)
  have htext : t.documentText.toList = yearText date.year ++ '-' :: (padded 2 date.month ++
      '-' :: (padded 2 date.day ++ 'T' :: (padded 2 (second / 3600) ++
        ':' :: (padded 2 (second / 60 % 60) ++ ':' :: (padded 2 (second % 60) ++
          (fractionText t.nanos ++ ['Z'])))))) := by
    have hleap : ¬ nanosPerSecond ≤ t.nanos := Nat.not_le.mpr h.nanos
    rw [documentText, String.toList_ofList, render, ← hdate, ← hsecond]
    simp [hleap]
  have hfraction : readFraction? (fractionText t.nanos ++ ['Z']) = some (t.nanos, ['Z']) :=
    readFraction?_fractionText h.nanos (by decide) (by decide)
  have hoffset : readOffset? (trimStart ['Z']) = some (0, []) := by decide
  have hlocal := ofLocal?_ofDays h hsecond
  rw [← hdate] at hlocal
  unfold ofText?
  rw [htext]
  refine Option.bind_eq_some_iff.mpr ⟨_, readYear?_yearText _ _, ?_⟩
  refine Option.bind_eq_some_iff.mpr ⟨_, readMark?_cons isBlank_hyphen _, ?_⟩
  refine Option.bind_eq_some_iff.mpr ⟨_, readNumber?_two hmonth _, ?_⟩
  refine Option.bind_eq_some_iff.mpr ⟨_, readMark?_cons isBlank_hyphen _, ?_⟩
  refine Option.bind_eq_some_iff.mpr ⟨_, readNumber?_two hdayOfMonth _, ?_⟩
  refine Option.bind_eq_some_iff.mpr ⟨_, rfl, ?_⟩
  refine Option.bind_eq_some_iff.mpr ⟨_, readNumber?_two (by omega) _, ?_⟩
  refine Option.bind_eq_some_iff.mpr ⟨_, readMark?_cons isBlank_colon _, ?_⟩
  refine Option.bind_eq_some_iff.mpr ⟨_, readNumber?_two (by omega) _, ?_⟩
  refine Option.bind_eq_some_iff.mpr ⟨_, readMark?_cons isBlank_colon _, ?_⟩
  refine Option.bind_eq_some_iff.mpr ⟨_, readNumber?_two (by omega) _, ?_⟩
  refine Option.bind_eq_some_iff.mpr ⟨_, hfraction, ?_⟩
  refine Option.bind_eq_some_iff.mpr ⟨_, hoffset, ?_⟩
  exact hlocal

end DenseBench.Calendar.Timestamp
