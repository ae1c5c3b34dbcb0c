import DenseBench.Json.Found
import DenseBench.Json.Printer
import DenseBench.Proofs.Text.Numeral
import Mathlib.Tactic.FinCases
import Mathlib.Tactic.IntervalCases

/-!
# JSON strings and numbers read back

A string is read from its escapes, whatever its characters. A number is read up to where its text
ends, and no further when something follows that cannot belong to a number.
-/

namespace DenseBench.Json

open Text

/-! ## Strings -/

theorem numberedChar_control {n : Nat} (hn : n < 32) (rest : List Char) :
    numberedChar ('0' :: '0' :: hexDigit (n / 16) :: hexDigit (n % 16) :: rest) =
      .ok (Char.ofNat n, rest) := by
  interval_cases n <;> rfl

def lettered : List Char := ['"', '\\', '\n', '\r', '\t', '\x08', '\x0c']

theorem escape_of_not_mem_lettered {c : Char} (h : c ∉ lettered) :
    escape c = if c.toNat < 32 then
      ['\\', 'u', '0', '0', hexDigit (c.toNat / 16), hexDigit (c.toNat % 16)] else [c] := by
  have hbackspace : c.toNat ≠ 8 := by
    intro hc
    obtain rfl : c = '\x08' := Char.toNat_inj.mp hc
    exact h (by decide)
  have hfeed : c.toNat ≠ 12 := by
    intro hc
    obtain rfl : c = '\x0c' := Char.toNat_inj.mp hc
    exact h (by decide)
  simp only [lettered, List.mem_cons, not_or] at h
  simp only [escape, h, hbackspace, hfeed, if_false]

theorem readString_escape (c : Char) (fuel : Nat) (rest : List Char) :
    readString (fuel + 1) (escape c ++ rest) =
      (readString fuel rest).map fun r => (c :: r.1, r.2) := by
  by_cases hlettered : c ∈ lettered
  · unfold lettered at hlettered
    fin_cases hlettered <;> rfl
  · rw [escape_of_not_mem_lettered hlettered]
    split
    · rename_i hcontrol
      have hchar := numberedChar_control hcontrol rest
      rw [Char.ofNat_toNat] at hchar
      simp only [List.cons_append, List.nil_append, readString, hchar]
      rfl
    · rename_i hcontrol
      simp only [lettered, List.mem_cons, not_or] at hlettered
      simp only [List.cons_append, List.nil_append, readString, hlettered, hcontrol, if_false]

theorem readString_quoted {cs : List Char} {fuel : Nat} (h : cs.length < fuel) (rest : List Char) :
    readString fuel (cs.flatMap escape ++ '"' :: rest) = .ok (cs, rest) := by
  induction cs generalizing fuel with
  | nil =>
    obtain ⟨fuel, rfl⟩ : ∃ k, fuel = k + 1 := ⟨fuel - 1, by omega⟩
    rfl
  | cons c cs ih =>
    obtain ⟨fuel, rfl⟩ : ∃ k, fuel = k + 1 := ⟨fuel - 1, by omega⟩
    rw [List.flatMap_cons, List.append_assoc, readString_escape,
      ih (Nat.lt_of_succ_lt_succ h)]
    rfl

theorem escape_ne_nil (c : Char) : escape c ≠ [] := by
  unfold escape
  repeat' split
  all_goals simp

theorem length_le_length_flatMap_escape (cs : List Char) :
    cs.length ≤ (cs.flatMap escape).length := by
  induction cs with
  | nil => exact Nat.le_refl 0
  | cons c cs ih =>
    have hpos := List.length_pos_iff.mpr (escape_ne_nil c)
    rw [List.flatMap_cons, List.length_append, List.length_cons]
    omega

theorem ofString_quoted (s : String) (rest : List Char) :
    Found.ofString (s.toList.flatMap escape ++ '"' :: rest) = (.text (.ok s), some rest) := by
  have hfuel : s.toList.length < (s.toList.flatMap escape ++ '"' :: rest).length := by
    have := length_le_length_flatMap_escape s.toList
    rw [List.length_append, List.length_cons]
    omega
  rw [Found.ofString, readString_quoted hfuel]
  simp only [String.ofList_toList]

/-! ## Numbers -/

/-- The digits of an exponent, from behind its sign on. -/
def readExponentDigits (positive : Bool) (significand : Nat) (start : Int) (up : Bool)
    (cs : List Char) : Except JsonFault (Float × List Char) :=
  match cs with
  | [] => .error .endsEarly
  | c :: _ =>
    if !c.isDigit then .error .malformed
    else
      let e := digitsValue (cs.takeWhile Char.isDigit)
      let rest := cs.dropWhile Char.isDigit
      if exponentBound ≤ e then
        if significand ≠ 0 ∧ up then .error .malformed
        else .ok (if positive then 0.0 else -0.0, rest)
      else
        (scaled positive significand (clampExponent (if up then start + e else start - e))).map
          fun x => (x, rest)

def wholeNumber (positive : Bool) (significand : Nat) (rest : List Char) :
    Except JsonFault (Number × List Char) :=
  if positive then .ok (.natural significand, rest)
  else if significand = 0 ∨ 2 ^ 63 < significand then
    .ok (.float (-(UInt64.ofNat significand).toFloat), rest)
  else .ok (.negative (-(significand : Int)), rest)

theorem wholeNumber_append {positive : Bool} {significand : Nat} {cs rest : List Char} {n : Number}
    (h : wholeNumber positive significand cs = .ok (n, rest)) (tail : List Char) :
    wholeNumber positive significand (cs ++ tail) = .ok (n, rest ++ tail) := by
  unfold wholeNumber at h ⊢
  split at h
  · rename_i hpositive
    rw [if_pos hpositive]
    cases h
    rfl
  · rename_i hnegative
    rw [if_neg hnegative]
    split at h
    · rename_i hfloat
      rw [if_pos hfloat]
      cases h
      rfl
    · rename_i hinteger
      rw [if_neg hinteger]
      cases h
      rfl

/-- What follows the whole digits of a number, `beyond` of which its significand has no room for. -/
def readBehindDigits (positive : Bool) (significand beyond : Nat) (rest : List Char) :
    Except JsonFault (Number × List Char) :=
  match rest with
  | '.' :: fraction =>
    (readFraction positive significand beyond fraction).map fun r => (.float r.1, r.2)
  | rest =>
    if beyond ≠ 0 ∨ rest.head? = some 'e' ∨ rest.head? = some 'E' then
      (readTail positive significand beyond rest).map fun r => (.float r.1, r.2)
    else wholeNumber positive significand rest

theorem readBehindDigits_of_ne (positive : Bool) (significand beyond : Nat) {rest : List Char}
    (h : rest.head? ≠ some '.') :
    readBehindDigits positive significand beyond rest =
      if beyond ≠ 0 ∨ rest.head? = some 'e' ∨ rest.head? = some 'E' then
        (readTail positive significand beyond rest).map fun r => (.float r.1, r.2)
      else wholeNumber positive significand rest := by
  unfold readBehindDigits
  split
  · exact absurd rfl h
  · rfl

theorem readNumber_cons (positive : Bool) (c : Char) (after : List Char) :
    readNumber positive (c :: after) =
      if !c.isDigit then .error .malformed
      else if c = '0' ∧ after.head?.any Char.isDigit then .error .malformed
      else
        let digits := takeDigits 0 0 (c :: after)
        readBehindDigits positive digits.1 (digits.2.2.takeWhile Char.isDigit).length
          (digits.2.2.dropWhile Char.isDigit) := by
  rfl

theorem readExponentPart_cases (positive : Bool) (significand : Nat) (start : Int)
    (cs : List Char) :
    (∃ ds, cs = '+' :: ds ∧ ∀ rest, readExponentPart positive significand start (cs ++ rest) =
        readExponentDigits positive significand start true (ds ++ rest)) ∨
      (∃ ds, cs = '-' :: ds ∧ ∀ rest, readExponentPart positive significand start (cs ++ rest) =
        readExponentDigits positive significand start false (ds ++ rest)) ∨
      cs = [] ∨ ∀ rest, readExponentPart positive significand start (cs ++ rest) =
        readExponentDigits positive significand start true (cs ++ rest) := by
  cases cs with
  | nil => exact .inr (.inr (.inl rfl))
  | cons c ds =>
    by_cases hplus : c = '+'
    · subst hplus
      exact .inl ⟨ds, rfl, fun _ => rfl⟩
    by_cases hminus : c = '-'
    · subst hminus
      exact .inr (.inl ⟨ds, rfl, fun _ => rfl⟩)
    refine .inr (.inr (.inr fun rest => ?_))
    unfold readExponentPart
    split
    rename_i heq
    split at heq
    · rename_i h
      cases h
      exact absurd rfl hplus
    · rename_i h
      cases h
      exact absurd rfl hminus
    · cases heq
      rfl

/-- What may follow a number: nothing that could belong to it. -/
def Stops (cs : List Char) : Prop :=
  ∀ c ∈ cs.head?, c.isDigit = false ∧ c ≠ '.' ∧ c ≠ 'e' ∧ c ≠ 'E'

namespace Stops

variable {tail : List Char}

theorem head?_any (h : Stops tail) (cs : List Char) :
    (cs ++ tail).head?.any Char.isDigit = cs.head?.any Char.isDigit := by
  cases cs with
  | cons c cs => rfl
  | nil =>
    cases tail with
    | nil => rfl
    | cons c tail => exact (h c rfl).1

theorem takeWhile_append (h : Stops tail) (cs : List Char) :
    (cs ++ tail).takeWhile Char.isDigit = cs.takeWhile Char.isDigit := by
  induction cs with
  | nil =>
    have hnone : ∀ c ∈ ([] : List Char), c.isDigit = true := nofun
    exact takeWhile_isDigit_append hnone (h.head?_any [])
  | cons c cs ih => rw [List.cons_append, List.takeWhile_cons, List.takeWhile_cons, ih]

theorem dropWhile_append (h : Stops tail) (cs : List Char) :
    (cs ++ tail).dropWhile Char.isDigit = cs.dropWhile Char.isDigit ++ tail := by
  induction cs with
  | nil =>
    have hnone : ∀ c ∈ ([] : List Char), c.isDigit = true := nofun
    exact dropWhile_isDigit_append hnone (h.head?_any [])
  | cons c cs ih =>
    rw [List.cons_append, List.dropWhile_cons, List.dropWhile_cons, ih]
    split <;> rfl

theorem takeDigits_append (h : Stops tail) (significand taken : Nat) (cs : List Char) :
    takeDigits significand taken (cs ++ tail) =
      ((takeDigits significand taken cs).1, (takeDigits significand taken cs).2.1,
        (takeDigits significand taken cs).2.2 ++ tail) := by
  induction cs generalizing significand taken with
  | nil =>
    cases tail with
    | nil => rfl
    | cons c tail =>
      have hc : c.isDigit = false := (h c rfl).1
      simp [takeDigits, hc]
  | cons c cs ih =>
    rw [List.cons_append, takeDigits, takeDigits]
    dsimp only
    split
    · split
      · exact ih _ _
      · rfl
    · rfl

theorem map_append {result : Except JsonFault Float} {rest : List Char} {x : Float} {cs : List Char}
    (hread : (result.map fun y => (y, cs)) = .ok (x, rest)) (tail : List Char) :
    (result.map fun y => (y, cs ++ tail)) = .ok (x, rest ++ tail) := by
  cases result with
  | error e => cases hread
  | ok y =>
    cases hread
    rfl

theorem readExponentDigits_append (h : Stops tail) {positive up : Bool} {significand : Nat}
    {start : Int} {cs rest : List Char} {x : Float}
    (hread : readExponentDigits positive significand start up cs = .ok (x, rest)) :
    readExponentDigits positive significand start up (cs ++ tail) = .ok (x, rest ++ tail) := by
  cases cs with
  | nil => cases hread
  | cons c cs =>
    have htake := h.takeWhile_append (c :: cs)
    have hdrop := h.dropWhile_append (c :: cs)
    rw [List.cons_append] at htake hdrop ⊢
    simp only [readExponentDigits, htake, hdrop] at hread ⊢
    split at hread
    · cases hread
    · rename_i hdigit
      rw [if_neg hdigit]
      split at hread
      · rename_i hbeyond
        rw [if_pos hbeyond]
        split at hread
        · cases hread
        · rename_i hsmall
          rw [if_neg hsmall]
          cases hread
          rfl
      · rename_i hwithin
        rw [if_neg hwithin]
        exact map_append hread tail

theorem readExponentPart_append (h : Stops tail) {positive : Bool} {significand : Nat}
    {start : Int} {cs rest : List Char} {x : Float}
    (hread : readExponentPart positive significand start cs = .ok (x, rest)) :
    readExponentPart positive significand start (cs ++ tail) = .ok (x, rest ++ tail) := by
  -- With the empty text behind it, what was read falls under the same cases as with the tail.
  rw [← List.append_nil cs] at hread
  rcases readExponentPart_cases positive significand start cs with
    ⟨ds, -, hds⟩ | ⟨ds, -, hds⟩ | rfl | hds
  · rw [hds, List.append_nil] at hread
    rw [hds]
    exact h.readExponentDigits_append hread
  · rw [hds, List.append_nil] at hread
    rw [hds]
    exact h.readExponentDigits_append hread
  · cases hread
  · rw [hds, List.append_nil] at hread
    rw [hds]
    exact h.readExponentDigits_append hread

theorem readTail_append (h : Stops tail) {positive : Bool} {significand : Nat}
    {exponent : Int} {cs rest : List Char} {x : Float}
    (hread : readTail positive significand exponent cs = .ok (x, rest)) :
    readTail positive significand exponent (cs ++ tail) = .ok (x, rest ++ tail) := by
  cases cs with
  | nil =>
    have hplain : readTail positive significand exponent tail =
        (scaled positive significand exponent).map fun x => (x, tail) := by
      cases tail with
      | nil => rfl
      | cons c tail =>
        obtain ⟨-, -, hlower, hupper⟩ := h c rfl
        simp [readTail, hlower, hupper]
    rw [List.nil_append, hplain]
    exact map_append hread tail
  | cons c cs =>
    rw [List.cons_append]
    unfold readTail at hread ⊢
    dsimp only at hread ⊢
    split at hread
    · rename_i hmark
      rw [if_pos hmark]
      exact h.readExponentPart_append hread
    · rename_i hmark
      rw [if_neg hmark]
      exact map_append hread tail

theorem readFraction_append (h : Stops tail) {positive : Bool} {significand : Nat}
    {exponent : Int} {cs rest : List Char} {x : Float}
    (hread : readFraction positive significand exponent cs = .ok (x, rest)) :
    readFraction positive significand exponent (cs ++ tail) = .ok (x, rest ++ tail) := by
  unfold readFraction at hread ⊢
  rw [h.takeDigits_append]
  generalize takeDigits significand 0 cs = digits at hread ⊢
  obtain ⟨sig, taken, after⟩ := digits
  dsimp only at hread ⊢
  cases after with
  | nil =>
    change (if taken = 0 then _ else readTail positive sig (exponent - taken) []) = _ at hread
    split at hread
    · cases hread
    · rename_i htaken
      have htail := h.readTail_append hread
      rw [List.nil_append] at htail ⊢
      cases tail with
      | nil => simpa [htaken] using htail
      | cons c tail =>
        have hc : c.isDigit = false := (h c rfl).1
        simpa [hc, htaken] using htail
  | cons c after =>
    rw [List.cons_append]
    dsimp only at hread ⊢
    split at hread
    · rename_i hdigit
      rw [if_pos hdigit, ← List.cons_append, h.dropWhile_append]
      exact h.readTail_append hread
    · rename_i hdigit
      rw [if_neg hdigit]
      split at hread
      · cases hread
      · rename_i htaken
        rw [if_neg htaken]
        exact h.readTail_append hread

theorem map_asFloat_append {result result' : Except JsonFault (Float × List Char)}
    {rest : List Char} {n : Number}
    (h : ∀ x rest, result = .ok (x, rest) → result' = .ok (x, rest ++ tail))
    (hread : (result.map fun r => (Number.float r.1, r.2)) = .ok (n, rest)) :
    (result'.map fun r => (Number.float r.1, r.2)) = .ok (n, rest ++ tail) := by
  cases result with
  | error e => cases hread
  | ok r =>
    cases hread
    rw [h r.1 r.2 rfl]
    rfl

theorem head?_append_eq_iff (h : Stops tail) (cs : List Char) {c : Char}
    (hc : c = '.' ∨ c = 'e' ∨ c = 'E') : (cs ++ tail).head? = some c ↔ cs.head? = some c := by
  cases cs with
  | cons d cs => rfl
  | nil =>
    rw [List.nil_append]
    constructor
    · intro htail
      obtain ⟨-, hpoint, hlower, hupper⟩ := h c htail
      rcases hc with rfl | rfl | rfl
      · exact absurd rfl hpoint
      · exact absurd rfl hlower
      · exact absurd rfl hupper
    · intro hnil
      cases hnil

theorem readBehindDigits_append (h : Stops tail) {positive : Bool} {significand beyond : Nat}
    {cs rest : List Char} {n : Number}
    (hread : readBehindDigits positive significand beyond cs = .ok (n, rest)) :
    readBehindDigits positive significand beyond (cs ++ tail) = .ok (n, rest ++ tail) := by
  by_cases hpoint : cs.head? = some '.'
  · obtain ⟨fraction, rfl⟩ := List.head?_eq_some_iff.mp hpoint
    exact map_asFloat_append (fun _ _ => h.readFraction_append) hread
  · have hpoint' : (cs ++ tail).head? ≠ some '.' := mt (h.head?_append_eq_iff cs (.inl rfl)).mp hpoint
    rw [readBehindDigits_of_ne _ _ _ hpoint] at hread
    simp only [readBehindDigits_of_ne _ _ _ hpoint', h.head?_append_eq_iff cs (.inr (.inl rfl)),
      h.head?_append_eq_iff cs (.inr (.inr rfl))]
    split at hread
    · rename_i hmark
      rw [if_pos hmark]
      exact map_asFloat_append (fun _ _ => h.readTail_append) hread
    · rename_i hmark
      rw [if_neg hmark]
      exact wholeNumber_append hread tail

theorem readNumber_append (h : Stops tail) {positive : Bool} {cs rest : List Char} {n : Number}
    (hread : readNumber positive cs = .ok (n, rest)) :
    readNumber positive (cs ++ tail) = .ok (n, rest ++ tail) := by
  cases cs with
  | nil => cases hread
  | cons c after =>
    have hdigits := h.takeDigits_append 0 0 (c :: after)
    rw [readNumber_cons] at hread
    rw [List.cons_append] at hdigits ⊢
    rw [readNumber_cons, h.head?_any, hdigits]
    dsimp only at hread ⊢
    rw [h.takeWhile_append, h.dropWhile_append]
    split at hread
    · cases hread
    · rename_i hdigit
      rw [if_neg hdigit]
      split at hread
      · cases hread
      · rename_i hzero
        rw [if_neg hzero]
        exact h.readBehindDigits_append hread

end Stops

theorem le_foldl_digits (ds : List Char) (v : Nat) :
    v ≤ ds.foldl (fun v c => 10 * v + digitValue c) v := by
  induction ds generalizing v with
  | nil => exact Nat.le_refl v
  | cons d ds ih => exact Nat.le_trans (by omega) (ih (10 * v + digitValue d))

/-- A significand with room for all digits takes them all. -/
theorem takeDigits_digits {ds : List Char} (hds : ∀ c ∈ ds, c.isDigit = true) {v : Nat}
    (h : ds.foldl (fun v c => 10 * v + digitValue c) v < significandLimit) (taken : Nat) :
    takeDigits v taken ds =
      (ds.foldl (fun v c => 10 * v + digitValue c) v, taken + ds.length, []) := by
  induction ds generalizing v taken with
  | nil => rfl
  | cons d ds ih =>
    have hd : d.isDigit = true := hds d List.mem_cons_self
    have hnext : v * 10 + digitValue d = 10 * v + digitValue d := by omega
    have hlt : 10 * v + digitValue d < significandLimit :=
      Nat.lt_of_le_of_lt (le_foldl_digits ds _) h
    rw [takeDigits, if_pos hd]
    dsimp only
    rw [hnext, if_pos hlt, ih (fun c hc => hds c (List.mem_cons_of_mem d hc)) h, List.length_cons,
      List.foldl_cons, Nat.add_assoc, Nat.add_comm 1]

/-- A whole number is read as itself; only zero begins with a zero. -/
theorem readNumber_numeral {n : Nat} (hn : n < significandLimit) {tail : List Char}
    (htail : Stops tail) : readNumber true (numeral n ++ tail) = .ok (.natural n, tail) := by
  suffices hread : readNumber true (numeral n) = .ok (.natural n, []) from
    htail.readNumber_append hread
  have hdigits : ∀ c ∈ numeral n, c.isDigit = true := fun c hc => isDigit_of_mem_numeral hc
  have htake := takeDigits_digits hdigits (v := 0)
    (by change digitsValue (numeral n) < _; rwa [digitsValue_numeral]) 0
  change _ = (digitsValue (numeral n), _, _) at htake
  rw [digitsValue_numeral] at htake
  obtain ⟨c, cs, hnumeral, hc⟩ := exists_numeral_eq_cons n
  have hzero : ¬ (c = '0' ∧ cs.head?.any Char.isDigit = true) := by
    rintro ⟨rfl, hmore⟩
    rw [eq_nil_of_numeral_eq_zero_cons hnumeral] at hmore
    cases hmore
  rw [hnumeral] at htake ⊢
  rw [readNumber_cons, hc, if_neg (by decide), if_neg hzero, htake]
  rfl

end DenseBench.Json
