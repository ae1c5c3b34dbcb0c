import DenseBench.Csv

/-!
# Records of fields read back

What is read from lines of at least two fields each is what was written, whatever the fields hold.
The one thing to keep off is a mark of the byte order at the very start.
-/

namespace DenseBench.Csv

def line (fields : List (List Char)) : List Char :=
  ((fields.map writeField).intersperse [',']).flatten ++ ['\n']

theorem line_singleton (f : List Char) : line [f] = writeField f ++ ['\n'] := by
  simp [line]

theorem line_cons (f g : List Char) (gs : List (List Char)) :
    line (f :: g :: gs) = writeField f ++ ',' :: line (g :: gs) := by
  simp [line]

theorem writeRecord_cons (f g : List Char) (gs : List (List Char)) :
    writeRecord (f :: g :: gs) = line (f :: g :: gs) := by
  simp [writeRecord, line]

namespace Reader

/-- The reader does not stand inside quotes. -/
def Outside (r : Reader) : Prop :=
  ∀ c, c ≠ '"' → r.step c = r.bareStep c

variable (records : List (List (List Char))) (fields : List (List Char))

theorem foldl_bare {cs : List Char} (hcs : needsQuotes cs = false) (field : List Char) :
    cs.foldl step ⟨records, fields, field, .bare⟩ =
      ⟨records, fields, cs.reverse ++ field, .bare⟩ := by
  induction cs generalizing field with
  | nil => rfl
  | cons c cs ih =>
    simp only [needsQuotes, List.any_cons, Bool.or_eq_false_iff, beq_eq_false_iff_ne] at hcs
    obtain ⟨⟨⟨⟨hcomma, -⟩, hline⟩, hreturn⟩, hrest⟩ := hcs
    have hstep : step ⟨records, fields, field, .bare⟩ c = ⟨records, fields, c :: field, .bare⟩ := by
      simp [step, bareStep, hcomma, hline, hreturn, push]
    rw [List.foldl_cons, hstep, ih hrest, List.reverse_cons, List.append_assoc]
    rfl

theorem foldl_doubled (cs field : List Char) :
    (doubled cs).foldl step ⟨records, fields, field, .quoted⟩ =
      ⟨records, fields, cs.reverse ++ field, .quoted⟩ := by
  induction cs generalizing field with
  | nil => rfl
  | cons c cs ih =>
    have hchar : (if c = '"' then ['"', '"'] else [c]).foldl step
        ⟨records, fields, field, .quoted⟩ = ⟨records, fields, c :: field, .quoted⟩ := by
      by_cases hc : c = '"'
      · subst hc
        rfl
      · simp [hc, step, push]
    rw [doubled, List.flatMap_cons, List.foldl_append, hchar]
    refine (ih (c :: field)).trans ?_
    rw [List.reverse_cons, List.append_assoc]
    rfl

/-- After a written field the reader holds it and stands outside quotes. -/
theorem exists_foldl_writeField (cs : List Char) :
    ∃ mode, (writeField cs).foldl step ⟨records, fields, [], .start⟩ =
        ⟨records, fields, cs.reverse, mode⟩ ∧
      Outside ⟨records, fields, cs.reverse, mode⟩ := by
  unfold writeField
  split
  -- Behind the closing quote only another quote would be taken into the field.
  · refine ⟨.quote, ?_, fun c hc => if_neg hc⟩
    rw [List.foldl_append, List.foldl_cons]
    change ['"'].foldl step ((doubled cs).foldl step ⟨records, fields, [], .quoted⟩) = _
    rw [foldl_doubled, List.append_nil]
    rfl
  · rename_i hplain
    cases cs with
    | nil => exact ⟨.start, rfl, fun c hc => if_neg hc⟩
    | cons c cs =>
      refine ⟨.bare, ?_, fun _ _ => rfl⟩
      have hquotes : needsQuotes (c :: cs) = false := by simpa using hplain
      obtain ⟨hc, hcs⟩ : (((c ≠ ',' ∧ c ≠ '"') ∧ c ≠ '\n') ∧ c ≠ '\r') ∧ needsQuotes cs = false := by
        simpa [needsQuotes] using hquotes
      have hstep : step ⟨records, fields, [], .start⟩ c = ⟨records, fields, [c], .bare⟩ := by
        simp [step, bareStep, hc, push]
      rw [List.foldl_cons, hstep, foldl_bare records fields hcs, List.reverse_cons]

/-- Whole records are read at the end of each line, once it has two fields or more. -/
theorem foldl_line (f : List Char) (fs : List (List Char)) (h : fields ≠ [] ∨ fs ≠ []) :
    (line (f :: fs)).foldl step ⟨records, fields, [], .start⟩ =
      ⟨(fields.reverse ++ f :: fs) :: records, [], [], .start⟩ := by
  induction fs generalizing f fields with
  | nil =>
    obtain ⟨mode, hfield, houtside⟩ := exists_foldl_writeField records fields f
    obtain ⟨e, es, rfl⟩ := List.exists_cons_of_ne_nil (h.resolve_right fun h => h rfl)
    rw [line_singleton, List.foldl_append, hfield, List.foldl_cons, houtside '\n' (by decide)]
    simp [bareStep, isFresh, endRecord, endField]
  | cons g gs ih =>
    obtain ⟨mode, hfield, houtside⟩ := exists_foldl_writeField records fields f
    have hcomma : bareStep ⟨records, fields, f.reverse, mode⟩ ',' =
        ⟨records, f :: fields, [], .start⟩ := by
      simp [bareStep, endField]
    rw [line_cons, List.foldl_append, hfield, List.foldl_cons, houtside ',' (by decide), hcomma,
      ih (f :: fields) g (.inl (List.cons_ne_nil f fields)), List.reverse_cons, List.append_assoc]
    rfl

theorem foldl_lines {rows : List (List (List Char))} (hrows : ∀ row ∈ rows, 2 ≤ row.length) :
    (rows.flatMap writeRecord).foldl step ⟨records, [], [], .start⟩ =
      ⟨rows.reverse ++ records, [], [], .start⟩ := by
  induction rows generalizing records with
  | nil => rfl
  | cons row rows ih =>
    match row, hrows row List.mem_cons_self with
    | f :: g :: gs, _ =>
      rw [List.flatMap_cons, List.foldl_append, writeRecord_cons,
        foldl_line records [] f (g :: gs) (.inr (List.cons_ne_nil g gs)),
        ih _ fun row h => hrows row (List.mem_cons_of_mem _ h), List.reverse_cons,
        List.append_assoc]
      rfl

end Reader

/-- A mark of the byte order cannot come to the start of a line by writing. -/
theorem head?_writeField_append {cs rest : List Char}
    (h : (cs ++ rest).head? ≠ some '\ufeff') : (writeField cs ++ rest).head? ≠ some '\ufeff' := by
  unfold writeField
  split
  · rw [List.cons_append, List.cons_append, List.head?_cons]
    decide
  · exact h

theorem read_lines {rows : List (List (List Char))} (hrows : ∀ row ∈ rows, 2 ≤ row.length)
    (hmark : (rows.flatMap writeRecord).head? ≠ some '\ufeff') :
    read (rows.flatMap writeRecord) = rows := by
  have hskip : Text.skipMark (rows.flatMap writeRecord) = rows.flatMap writeRecord := by
    unfold Text.skipMark
    split
    · rename_i heq
      rw [heq] at hmark
      exact absurd rfl hmark
    · rfl
  rw [read, hskip, Reader.foldl_lines [] hrows]
  simp [Reader.isFresh]

end DenseBench.Csv
