import DenseBench.Proofs.Run.Frame
import DenseBench.Proofs.Text.Numeral

/-!
# Reports

A run whose watch was stopped has a report and a record, and the report is one line.
-/

namespace DenseBench

open Text

theorem Decimal.newline_not_mem_fixed (places : Nat) (x : Float) :
    '\n' ∉ (fixed places x).toList := by
  unfold fixed
  split
  · decide
  · split <;> decide
  · rename_i negative m q hparts
    have hdigits : '\n' ∉ padded (places + 1) (scaledRound places m q) := fun hmem =>
      absurd (isDigit_of_mem_padded hmem) (by decide)
    dsimp only
    generalize padded (places + 1) (scaledRound places m q) = ds at hdigits
    have htake : '\n' ∉ ds.take (ds.length - places) := fun h => hdigits (List.mem_of_mem_take h)
    have hdrop : '\n' ∉ ds.drop (ds.length - places) := fun h => hdigits (List.mem_of_mem_drop h)
    cases negative <;> simp [htake, hdrop]

namespace Run

theorem newline_not_mem_numeralText (n : Nat) : '\n' ∉ (numeralText n).toList := by
  intro hmem
  rw [numeralText, String.toList_ofList] at hmem
  exact absurd (isDigit_of_mem_numeral hmem) (by decide)

theorem newline_not_mem_sizeLabel (sizes : List UInt64) : '\n' ∉ (sizeLabel sizes).toList := by
  rw [sizeLabel, String.toList_intercalate, List.map_map]
  induction sizes with
  | nil => decide
  | cons n sizes ih =>
    cases sizes with
    | nil =>
      rw [List.map_singleton, List.intercalate_singleton]
      exact newline_not_mem_numeralText n.toNat
    | cons m sizes =>
      rw [List.map_cons, List.map_cons, List.intercalate_cons_cons, ← List.map_cons]
      intro hmem
      rcases List.mem_append.mp hmem with hmem | hmem
      · rcases List.mem_append.mp hmem with hmem | hmem
        · exact newline_not_mem_numeralText n.toNat hmem
        · exact absurd hmem (by decide)
      · exact ih hmem

namespace Bench

variable {bench : Bench} {elapsed : Nat}

theorem reportLine_eq (helapsed : bench.elapsed? = some elapsed) :
    bench.reportLine = .ok (bench.config.script ++ " - engine: " ++ bench.config.engine.name ++
      ", dtype: " ++ bench.config.dtype.name ++ ", size: " ++ bench.config.sizeLabel ++
      ", elapsed-time: " ++ Decimal.fixed 6 (seconds elapsed)) := by
  rw [reportLine, helapsed]

theorem newline_not_mem_reportLine {line : String} (hline : bench.reportLine = .ok line)
    (hscript : '\n' ∉ bench.config.script.toList) : '\n' ∉ line.toList := by
  cases helapsed : bench.elapsed? with
  | none =>
    rw [reportLine, helapsed] at hline
    cases hline
  | some elapsed =>
  rw [reportLine_eq helapsed] at hline
  obtain rfl := Except.ok.inj hline
  have hengine : '\n' ∉ bench.config.engine.name.toList := by
    cases bench.config.engine <;> decide
  have hdtype : '\n' ∉ bench.config.dtype.name.toList := by
    cases bench.config.dtype <;> decide
  have hsizes : '\n' ∉ bench.config.sizeLabel.toList := newline_not_mem_sizeLabel bench.config.sizes
  simp only [String.toList_append, List.mem_append, not_or]
  exact ⟨⟨⟨⟨⟨⟨⟨⟨hscript, by decide⟩, hengine⟩, by decide⟩, hdtype⟩, by decide⟩, hsizes⟩,
    by decide⟩, Decimal.newline_not_mem_fixed 6 (seconds elapsed)⟩

end Bench

end Run

end DenseBench
