import DenseBench.Proofs.Json.Lexeme

/-!
# Printed JSON read back

Reading finds in a printed document just what was printed, at any depth and whatever follows. The
one thing taken from outside is that the digits printed for a double are read as that double.
-/

namespace DenseBench.Json

open Text Found

/-- Reading the numeral that is printed for a number finds this number. -/
def ReadsBack (x : Float) : Prop :=
  Found.read (numberText x) = (.number (.ok (.float x)), some [])

/-! ## What is found in what was printed -/

mutual

def Value.found : Value → Found
  | .bool b => .bool b
  | .word n => .number (.ok (.natural n))
  | .number x => .number (.ok (.float x))
  | .text s => .text (.ok s)
  | .list items => .list (foundItems items) none
  | .record fields => .record (foundMembers fields) none

def foundItems : List Value → List Found
  | [] => []
  | item :: items => item.found :: foundItems items

def foundMembers : List (String × Value) → List Member
  | [] => []
  | (key, value) :: fields => .field (.ok key) value.found :: foundMembers fields

end

mutual

/-- Whole numbers are 64-bit words, and all other numbers read back. -/
def Value.Readable : Value → Prop
  | .word n => n < significandLimit
  | .number x => ReadsBack x
  | .list items => ReadableItems items
  | .record fields => ReadableFields fields
  | .bool _ | .text _ => True

def ReadableItems : List Value → Prop
  | [] => True
  | item :: items => item.Readable ∧ ReadableItems items

def ReadableFields : List (String × Value) → Prop
  | [] => True
  | (_, value) :: fields => value.Readable ∧ ReadableFields fields

end

/-! ## Numbers -/

theorem value_of_isDigit {c : Char} (h : c.isDigit = true) (fuel : Nat) (cs : List Char) :
    value (fuel + 1) (c :: cs) = ofNumber true c (c :: cs) := by
  have hspace : skipSpace (c :: cs) = c :: cs := by
    rw [skipSpace, List.dropWhile_cons_of_neg]
    simp only [isSpace, Bool.or_eq_true, beq_iff_eq]
    rintro (((rfl | rfl) | rfl) | rfl) <;> exact absurd h (by decide)
  unfold value
  rw [hspace]
  split
  case h_9 heq =>
    cases heq
    rw [if_pos h]
  all_goals
    rename_i heq
    cases heq
  all_goals exact absurd h (by decide)

theorem value_hyphen (fuel : Nat) (cs : List Char) :
    value (fuel + 1) ('-' :: cs) = ofNumber false '-' cs := by
  rfl

theorem readNumber_of_ofNumber {positive : Bool} {first : Char} {cs rest : List Char} {n : Number}
    (h : ofNumber positive first cs = (.number (.ok n), some rest)) :
    readNumber positive cs = .ok (n, rest) := by
  unfold ofNumber at h
  split at h
  · rename_i hread
    cases h
    exact hread
  · split at h <;> cases h

theorem ofNumber_append {positive : Bool} {first : Char} {cs tail : List Char} {n : Number}
    (htail : Stops tail) (h : ofNumber positive first cs = (.number (.ok n), some [])) :
    ofNumber positive first (cs ++ tail) = (.number (.ok n), some tail) := by
  rw [ofNumber, htail.readNumber_append (readNumber_of_ofNumber h)]
  rfl

theorem exists_unsigned_eq_cons (l : Decimal.Layout) (d : Decimal.Scientific) :
    ∃ c cs, l.unsigned d = c :: cs ∧ c.isDigit = true := by
  obtain ⟨c, cs, hnumeral, hc⟩ := exists_numeral_eq_cons d.digits
  unfold Decimal.Layout.unsigned
  rw [hnumeral]
  dsimp only
  split
  · exact ⟨'0', _, rfl, by decide⟩
  split
  · split
    · exact ⟨c, _, rfl, hc⟩
    split
    · exact ⟨c, _, rfl, hc⟩
    · exact ⟨'0', _, rfl, by decide⟩
  · cases cs with
    | nil =>
      split
      · exact ⟨c, _, rfl, hc⟩
      · exact ⟨c, _, rfl, hc⟩
    | cons d ds =>
      split
      · exact ⟨c, _, rfl, hc⟩
      · exact ⟨c, _, rfl, hc⟩

/-- A numeral that reads back begins with a digit or with the sign before one. -/
theorem ReadsBack.numberText_eq {x : Float} (h : ReadsBack x) :
    ∃ c cs, c.isDigit = true ∧ (numberText x = c :: cs ∨ numberText x = '-' :: c :: cs) := by
  cases hparts : Decimal.parts x with
  | finite negative m q =>
    obtain ⟨c, cs, hunsigned, hc⟩ :=
      exists_unsigned_eq_cons .document (Decimal.shortest Decimal.Layout.document.tie m q)
    refine ⟨c, cs, hc, ?_⟩
    rw [numberText, Decimal.Layout.render, hparts]
    cases negative with
    | false => exact .inl (by simp [hunsigned])
    | true => exact .inr (by simp [hunsigned])
  | nan =>
    rw [ReadsBack, numberText, hparts] at h
    cases h
  | infinite negative =>
    rw [ReadsBack, numberText, hparts] at h
    cases h

theorem ReadsBack.value_eq {x : Float} (h : ReadsBack x) {tail : List Char} (htail : Stops tail)
    (fuel : Nat) :
    value (fuel + 1) (numberText x ++ tail) = (.number (.ok (.float x)), some tail) := by
  obtain ⟨c, cs, hc, htext | htext⟩ := h.numberText_eq
  · rw [ReadsBack, htext, Found.read, value_of_isDigit hc] at h
    rw [htext, List.cons_append, value_of_isDigit hc]
    exact ofNumber_append htail h
  · rw [ReadsBack, htext, Found.read, value_hyphen] at h
    rw [htext, List.cons_append, value_hyphen]
    exact ofNumber_append htail h

theorem value_numeral {n : Nat} (hn : n < significandLimit) {tail : List Char}
    (htail : Stops tail) (fuel : Nat) :
    value (fuel + 1) (numeral n ++ tail) = (.number (.ok (.natural n)), some tail) := by
  have hread := readNumber_numeral hn htail
  obtain ⟨c, cs, hnumeral, hc⟩ := exists_numeral_eq_cons n
  rw [hnumeral, List.cons_append] at hread ⊢
  rw [value_of_isDigit hc, ofNumber, hread]

/-! ## Lists and records -/

theorem skipSpace_newLine (level : Nat) (cs : List Char) :
    skipSpace (newLine level ++ cs) = skipSpace cs := by
  have hblank : ∀ c ∈ newLine level, isSpace c = true := by
    intro c hc
    rcases List.mem_cons.mp hc with rfl | hc
    · rfl
    · rw [List.eq_of_mem_replicate hc]
      rfl
  exact List.dropWhile_append_of_pos hblank

theorem value_newLine (fuel level : Nat) (cs : List Char) :
    value fuel (newLine level ++ cs) = value fuel cs := by
  cases fuel with
  | zero => rfl
  | succ fuel =>
    unfold value
    rw [skipSpace_newLine]

theorem items_close (fuel level : Nat) (found : List Found) (tail : List Char) :
    items (fuel + 1) found (newLine level ++ ']' :: tail) =
      (.list found.reverse none, some tail) := by
  rw [items, skipSpace_newLine]
  rfl

theorem items_comma {found : List Found} (h : found ≠ []) (fuel : Nat) (cs : List Char) :
    items (fuel + 1) found (',' :: cs) = item fuel found cs := by
  have hspace : skipSpace (',' :: cs) = ',' :: cs := rfl
  rw [items, hspace]
  change (if found.isEmpty then _ else if ',' = ',' then item fuel found cs else _) = _
  rw [if_neg (by simpa using h), if_pos rfl]

def Begins (c : Char) : Prop :=
  isSpace c = false ∧ c ≠ ']'

instance : DecidablePred Begins :=
  fun c => inferInstanceAs (Decidable (isSpace c = false ∧ c ≠ ']'))

theorem items_first {c : Char} (h : Begins c) (fuel level : Nat) (cs : List Char) :
    items (fuel + 1) [] (newLine level ++ c :: cs) = item fuel [] (c :: cs) := by
  have hspace : skipSpace (c :: cs) = c :: cs := by
    rw [skipSpace, List.dropWhile_cons_of_neg (by simp [h.1])]
  rw [items, skipSpace_newLine, hspace]
  split
  · rename_i heq
    cases heq
  · rename_i heq
    cases heq
    exact absurd rfl h.2
  · rename_i heq
    cases heq
    rfl

theorem item_of_value {fuel : Nat} {cs rest : List Char} {v : Found}
    (h : value fuel cs = (v, some rest)) (found : List Found) :
    item (fuel + 1) found cs = items fuel (v :: found) rest := by
  rw [item, h]

theorem members_close (fuel level : Nat) (found : List Member) (tail : List Char) :
    members (fuel + 1) found (newLine level ++ '\x7d' :: tail) =
      (.record found.reverse none, some tail) := by
  rw [members, skipSpace_newLine]
  rfl

theorem members_comma {found : List Member} (h : found ≠ []) (fuel : Nat) (cs : List Char) :
    members (fuel + 1) found (',' :: cs) = member fuel found cs := by
  have hspace : skipSpace (',' :: cs) = ',' :: cs := rfl
  rw [members, hspace]
  change (if found.isEmpty then _ else if ',' = ',' then member fuel found cs else _) = _
  rw [if_neg (by simpa using h), if_pos rfl]

theorem members_first (fuel level : Nat) (cs : List Char) :
    members (fuel + 1) [] (newLine level ++ '"' :: cs) = member fuel [] ('"' :: cs) := by
  rw [members, skipSpace_newLine]
  rfl

theorem quoted_append (s : String) (cs : List Char) :
    quoted s ++ cs = '"' :: (s.toList.flatMap escape ++ '"' :: cs) := by
  simp [quoted]

theorem member_newLine (fuel level : Nat) (found : List Member) (cs : List Char) :
    member fuel found (newLine level ++ cs) = member fuel found cs := by
  cases fuel with
  | zero => rfl
  | succ fuel => rw [member, member, skipSpace_newLine]

theorem member_of_value {fuel : Nat} {key : String} {cs rest : List Char} {v : Found}
    (h : value fuel cs = (v, some rest)) (found : List Member) :
    member (fuel + 1) found (quoted key ++ ':' :: ' ' :: cs) =
      members fuel (.field (.ok key) v :: found) rest := by
  have hvalue : value fuel (' ' :: cs) = (v, some rest) := by
    cases fuel with
    | zero => exact h
    | succ fuel =>
      unfold value at h ⊢
      exact h
  have hspace : skipSpace ('"' :: (key.toList.flatMap escape ++ '"' :: ':' :: ' ' :: cs)) =
      '"' :: (key.toList.flatMap escape ++ '"' :: ':' :: ' ' :: cs) := rfl
  have hcolon : skipSpace (':' :: ' ' :: cs) = ':' :: ' ' :: cs := rfl
  simp only [quoted_append, member, hspace, ofString_quoted, hcolon, hvalue]

/-! ## Documents -/

theorem stops_newLine (level : Nat) (cs : List Char) : Stops (newLine level ++ cs) := by
  intro c hc
  cases hc
  decide

theorem stops_comma (cs : List Char) : Stops (',' :: cs) := by
  intro c hc
  cases hc
  decide

theorem stops_printItems (level : Nat) (vs : List Value) (tail : List Char) :
    Stops (printItems level vs ++ tail) := by
  cases vs with
  | nil =>
    rw [printItems, List.append_assoc]
    exact stops_newLine level _
  | cons v vs => exact stops_comma _

theorem stops_printFields (level : Nat) (fields : List (String × Value)) (tail : List Char) :
    Stops (printFields level fields ++ tail) := by
  cases fields with
  | nil =>
    rw [printFields, List.append_assoc]
    exact stops_newLine level _
  | cons field fields => exact stops_comma _

theorem begins_of_isDigit {c : Char} (h : c.isDigit = true) : Begins c := by
  constructor
  · simp only [isSpace, Bool.or_eq_false_iff, beq_eq_false_iff_ne]
    refine ⟨⟨⟨?_, ?_⟩, ?_⟩, ?_⟩ <;> (rintro rfl; exact absurd h (by decide))
  · rintro rfl
    exact absurd h (by decide)

theorem exists_print_eq_cons {v : Value} (hv : v.Readable) (level : Nat) :
    ∃ c cs, v.print level = c :: cs ∧ Begins c := by
  cases v with
  | bool b =>
    cases b with
    | false => exact ⟨'f', _, rfl, by decide⟩
    | true => exact ⟨'t', _, rfl, by decide⟩
  | word n =>
    obtain ⟨c, cs, hnumeral, hc⟩ := exists_numeral_eq_cons n
    exact ⟨c, cs, hnumeral, begins_of_isDigit hc⟩
  | number x =>
    obtain ⟨c, cs, hc, htext | htext⟩ := ReadsBack.numberText_eq hv
    · exact ⟨c, cs, htext, begins_of_isDigit hc⟩
    · exact ⟨'-', c :: cs, htext, by decide⟩
  | text s => exact ⟨'"', _, rfl, by decide⟩
  | list items =>
    cases items with
    | nil => exact ⟨'[', _, rfl, by decide⟩
    | cons item items => exact ⟨'[', _, rfl, by decide⟩
  | record fields =>
    cases fields with
    | nil => exact ⟨'\x7b', _, rfl, by decide⟩
    | cons field fields => exact ⟨'\x7b', _, rfl, by decide⟩

mutual

theorem value_print (v : Value) (hv : v.Readable) (level fuel : Nat)
    (hfuel : 3 * (v.print level).length ≤ fuel) {tail : List Char} (htail : Stops tail) :
    value fuel (v.print level ++ tail) = (v.found, some tail) := by
  -- Nothing is printed without a character, and three calls for each are more than enough.
  have hpos : 0 < (v.print level).length := by
    obtain ⟨c, cs, hprint, -⟩ := exists_print_eq_cons hv level
    rw [hprint]
    exact Nat.succ_pos _
  obtain ⟨fuel, rfl⟩ : ∃ k, fuel = k + 3 := ⟨fuel - 3, by omega⟩
  match v with
  | .bool true => rfl
  | .bool false => rfl
  | .word n => exact value_numeral hv htail (fuel + 2)
  | .number x => exact ReadsBack.value_eq hv htail (fuel + 2)
  | .text s =>
    change value (fuel + 3) (quoted s ++ tail) = _
    rw [quoted_append]
    exact ofString_quoted s tail
  | .list [] => rfl
  | .list (item :: items) =>
    simp only [Value.print, List.length_cons, List.length_append] at hfuel
    obtain ⟨c, cs, hprint, hbegins⟩ := exists_print_eq_cons hv.1 (level + 1)
    have hitem := value_print item hv.1 (level + 1) fuel (by omega)
      (stops_printItems level items tail)
    have hitems := items_printItems items hv.2 level fuel (by omega)
      (List.cons_ne_nil item.found []) tail
    -- Brackets are put so that each reader meets its own part first.
    have htext : (Value.list (item :: items)).print level ++ tail =
        '[' :: (newLine (level + 1) ++ (item.print (level + 1) ++
          (printItems level items ++ tail))) := by
      simp [Value.print]
    rw [htext]
    change Found.items (fuel + 2) [] _ = _
    rw [hprint, List.cons_append, items_first hbegins, ← List.cons_append, ← hprint,
      item_of_value hitem, hitems]
    rfl
  | .record [] => rfl
  | .record ((key, value) :: fields) =>
    simp only [Value.print, List.length_cons, List.length_append] at hfuel
    have hvalue := value_print value hv.1 (level + 1) fuel (by omega)
      (stops_printFields level fields tail)
    have hfields := members_printFields fields hv.2 level fuel (by omega)
      (List.cons_ne_nil (.field (.ok key) value.found) []) tail
    have htext : (Value.record ((key, value) :: fields)).print level ++ tail =
        '\x7b' :: (newLine (level + 1) ++ (quoted key ++ ':' :: ' ' ::
          (value.print (level + 1) ++ (printFields level fields ++ tail)))) := by
      simp [Value.print]
    rw [htext]
    change Found.members (fuel + 2) [] _ = _
    rw [quoted_append, members_first, ← quoted_append, member_of_value hvalue, hfields]
    rfl

theorem items_printItems (vs : List Value) (hvs : ReadableItems vs) (level fuel : Nat)
    (hfuel : 3 * (printItems level vs).length ≤ fuel) {found : List Found} (hfound : found ≠ [])
    (tail : List Char) :
    items fuel found (printItems level vs ++ tail) =
      (.list (found.reverse ++ foundItems vs) none, some tail) := by
  match vs with
  | [] =>
    obtain ⟨fuel, rfl⟩ : ∃ k, fuel = k + 1 := ⟨fuel - 1, by simp [printItems] at hfuel; omega⟩
    rw [printItems, List.append_assoc]
    exact (items_close fuel level found tail).trans (by simp [foundItems])
  | v :: vs =>
    simp only [printItems, List.length_cons, List.length_append] at hfuel
    obtain ⟨fuel, rfl⟩ : ∃ k, fuel = k + 2 := ⟨fuel - 2, by omega⟩
    have hitem := value_print v hvs.1 (level + 1) fuel (by omega)
      (stops_printItems level vs tail)
    have hitems := items_printItems vs hvs.2 level fuel (by omega)
      (List.cons_ne_nil v.found found) tail
    have htext : printItems level (v :: vs) ++ tail =
        ',' :: (newLine (level + 1) ++ (v.print (level + 1) ++ (printItems level vs ++ tail))) := by
      simp [printItems]
    rw [htext, items_comma hfound, item_of_value ((value_newLine _ _ _).trans hitem), hitems]
    simp [foundItems]

theorem members_printFields (fields : List (String × Value)) (hfields : ReadableFields fields)
    (level fuel : Nat) (hfuel : 3 * (printFields level fields).length ≤ fuel)
    {found : List Member} (hfound : found ≠ []) (tail : List Char) :
    members fuel found (printFields level fields ++ tail) =
      (.record (found.reverse ++ foundMembers fields) none, some tail) := by
  match fields with
  | [] =>
    obtain ⟨fuel, rfl⟩ : ∃ k, fuel = k + 1 := ⟨fuel - 1, by simp [printFields] at hfuel; omega⟩
    rw [printFields, List.append_assoc]
    exact (members_close fuel level found tail).trans (by simp [foundMembers])
  | (key, value) :: fields =>
    simp only [printFields, List.length_cons, List.length_append] at hfuel
    obtain ⟨fuel, rfl⟩ : ∃ k, fuel = k + 2 := ⟨fuel - 2, by omega⟩
    have hvalue := value_print value hfields.1 (level + 1) fuel (by omega)
      (stops_printFields level fields tail)
    have hmembers := members_printFields fields hfields.2 level fuel (by omega)
      (List.cons_ne_nil (.field (.ok key) value.found) found) tail
    have htext : printFields level ((key, value) :: fields) ++ tail =
        ',' :: (newLine (level + 1) ++ (quoted key ++ ':' :: ' ' ::
          (value.print (level + 1) ++ (printFields level fields ++ tail)))) := by
      simp [printFields]
    rw [htext, members_comma hfound, member_newLine, member_of_value hvalue, hmembers]
    simp [foundMembers]

end

theorem read_print {v : Value} (hv : v.Readable) :
    Found.read v.toText.toList = (v.found, some []) := by
  have hstops : Stops [] := nofun
  have h := value_print v hv 0 (3 * (v.print 0).length + 3) (by omega) hstops
  rw [List.append_nil] at h
  rw [Value.toText, String.toList_ofList]
  exact h

end DenseBench.Json
