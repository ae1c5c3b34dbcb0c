import DenseBench.Proofs.Run.Options
import DenseBench.Proofs.Text.Grammar

/-!
# The grammar of size specifications

A specification is cut into pieces at its stars. Each piece is a size, or it has a fault, and the
leftmost fault is the one reported. The label of sizes is a specification of them.
-/

namespace DenseBench.Run

open Text

/-- What counts of a piece: first the blanks around it are stripped, then all underscores go. -/
def Leaves (piece rest : List Char) : Prop :=
  ∃ inner, Trims piece inner ∧ rest = inner.filter (· ≠ '_')

theorem leaves_iff {piece rest : List Char} :
    Leaves piece rest ↔ rest = (trim piece).filter (· ≠ '_') := by
  simp only [Leaves, trims_iff, exists_eq_left']

/-- The piece is written for a positive word. -/
def GivesSize (piece : List Char) (n : UInt64) : Prop :=
  ∃ rest, Leaves piece rest ∧ IsNumeral rest n.toNat ∧ 0 < n.toNat

/-- The piece is written for zero, or it is no numeral of a word. -/
inductive HasFault (spec : String) (piece : List Char) : SizeFault → Prop
  | notPositive {rest : List Char} (h : Leaves piece rest) (hzero : IsNumeral rest 0) :
    HasFault spec piece (.notPositive spec)
  | notNumber {rest : List Char} (h : Leaves piece rest)
    (hnone : ∀ n, IsNumeral rest n → 2 ^ 64 ≤ n) :
    HasFault spec piece (.notNumber spec (String.ofList rest))

theorem parseSize_of_leaves {piece rest : List Char} (h : Leaves piece rest) (spec : String) :
    parseSize spec piece = match readUnsigned? wordLimit rest with
      | none => .error (.invalidSize (.notNumber spec (String.ofList rest)))
      | some 0 => .error (.invalidSize (.notPositive spec))
      | some n => .ok (UInt64.ofNat n) := by
  rw [leaves_iff.mp h]
  rfl

theorem parseSize_of_givesSize {piece : List Char} {n : UInt64} (h : GivesSize piece n)
    (spec : String) : parseSize spec piece = .ok n := by
  obtain ⟨rest, hrest, hnumeral, hpos⟩ := h
  have hread : readUnsigned? wordLimit rest = some n.toNat :=
    readUnsigned?_eq_some_iff.mpr ⟨hnumeral, n.toNat_lt⟩
  rw [parseSize_of_leaves hrest, hread]
  split
  · contradiction
  · rename_i hzero
    rw [Option.some.inj hzero] at hpos
    exact absurd hpos (Nat.lt_irrefl 0)
  · rename_i k _ hk
    rw [← Option.some.inj hk, UInt64.ofNat_toNat]

theorem parseSize_of_hasFault {spec : String} {piece : List Char} {fault : SizeFault}
    (h : HasFault spec piece fault) : parseSize spec piece = .error (.invalidSize fault) := by
  cases h with
  | @notPositive rest hrest hzero =>
    have hread : readUnsigned? wordLimit rest = some 0 :=
      readUnsigned?_eq_some_iff.mpr ⟨hzero, by decide⟩
    rw [parseSize_of_leaves hrest, hread]
    rfl
  | @notNumber rest hrest hnone =>
    have hread : readUnsigned? wordLimit rest = none := readUnsigned?_eq_none_iff.mpr hnone
    rw [parseSize_of_leaves hrest, hread]

theorem givesSize_or_hasFault (spec : String) (piece : List Char) :
    (∃ n, GivesSize piece n) ∨ ∃ fault, HasFault spec piece fault := by
  have hrest : Leaves piece ((trim piece).filter (· ≠ '_')) := leaves_iff.mpr rfl
  cases hread : readUnsigned? wordLimit ((trim piece).filter (· ≠ '_')) with
  | none => exact .inr ⟨_, .notNumber hrest (readUnsigned?_eq_none_iff.mp hread)⟩
  | some n =>
    obtain ⟨hnumeral, hlt⟩ := readUnsigned?_eq_some_iff.mp hread
    rcases Nat.eq_zero_or_pos n with rfl | hpos
    · exact .inr ⟨_, .notPositive hrest hnumeral⟩
    · have hword : (UInt64.ofNat n).toNat = n := UInt64.toNat_ofNat_of_lt' hlt
      exact .inl ⟨UInt64.ofNat n, _, hrest, by rwa [hword], by rwa [hword]⟩

theorem parseSize_iff (spec : String) (piece : List Char) :
    (∀ n, parseSize spec piece = .ok n ↔ GivesSize piece n) ∧
      ∀ e, parseSize spec piece = .error e ↔ ∃ fault, HasFault spec piece fault ∧
        e = .invalidSize fault := by
  refine eq_iff_of_total (fun n h => parseSize_of_givesSize h spec) ?_ ?_
  · rintro e ⟨fault, hfault, rfl⟩
    exact parseSize_of_hasFault hfault
  · rcases givesSize_or_hasFault spec piece with hsize | ⟨fault, hfault⟩
    · exact .inl hsize
    · exact .inr ⟨_, fault, hfault, rfl⟩

/-- Sizes are read just from the texts of the grammar, and from all others the fault of their
leftmost piece that has one. Labels are texts of the grammar. -/
theorem parseSizes_grammar (spec : String) :
    (∀ sizes, parseSizes spec = .ok sizes ↔
      List.Forall₂ GivesSize (spec.toList.splitOn '*') sizes) ∧
    (∀ sizes, parseSizes spec = .ok sizes → sizes ≠ [] ∧ ∀ n ∈ sizes, n ≠ 0) ∧
    (∀ e, parseSizes spec = .error e ↔
      ∃ before piece after fault, spec.toList.splitOn '*' = before ++ piece :: after ∧
        (∀ p ∈ before, ∃ n, GivesSize p n) ∧ HasFault spec piece fault ∧
        e = .invalidSize fault) ∧
    (SizeFault.notPositive spec).message = "'" ++ spec ++ "': sizes must be positive" ∧
    (∀ rest, (SizeFault.notNumber spec rest).message =
      "'" ++ spec ++ "': '" ++ rest ++ "' is not a number") ∧
    ∀ sizes : List UInt64, sizes ≠ [] → (∀ n ∈ sizes, n ≠ 0) →
      (∀ config : Config, config.sizes = sizes → parseSizes config.sizeLabel = .ok sizes) ∧
      ∀ r : Record, r.sizes = sizes → parseSizes r.sizeLabel = .ok sizes := by
  refine ⟨fun sizes => ?_, fun sizes => areSizes_of_parseSizes, fun e => ?_, rfl, fun _ => rfl, ?_⟩
  · rw [parseSizes, mapM_eq_ok_iff]
    simp only [(parseSize_iff spec _).1]
  · rw [parseSizes, mapM_eq_error_iff]
    simp only [(parseSize_iff spec _).1, (parseSize_iff spec _).2]
    constructor
    · rintro ⟨before, piece, after, hcut, hbefore, fault, hfault, rfl⟩
      exact ⟨before, piece, after, fault, hcut, hbefore, hfault, rfl⟩
    · rintro ⟨before, piece, after, fault, hcut, hbefore, hfault, rfl⟩
      exact ⟨before, piece, after, hcut, hbefore, fault, hfault, rfl⟩
  · intro sizes hne hpos
    constructor
    · rintro config rfl
      exact parseSizes_sizeLabel hne hpos
    · rintro r rfl
      exact parseSizes_sizeLabel hne hpos

theorem parseSizes_grammar_looseText :
    parseSizes " +1_0 *007" = .ok [10, 7] ∧
      List.Forall₂ GivesSize (" +1_0 *007".toList.splitOn '*') [10, 7] ∧
      parseSizes "5*0*x" = .error (.invalidSize (.notPositive "5*0*x")) ∧
      parseSizes (sizeLabel [12, 3]) = .ok [12, 3] := by
  have hread : parseSizes " +1_0 *007" = .ok [10, 7] := by decide +kernel
  obtain ⟨hsizes, -⟩ := parseSizes_grammar " +1_0 *007"
  obtain ⟨-, -, hfaults, -⟩ := parseSizes_grammar "5*0*x"
  obtain ⟨-, -, -, -, -, hlabels⟩ := parseSizes_grammar "12*3"
  refine ⟨hread, (hsizes _).mp hread, ?_, ?_⟩
  · refine (hfaults _).mpr ⟨[['5']], ['0'], [['x']], _, by decide, ?_, ?_, rfl⟩
    · intro p hp
      obtain rfl := List.mem_singleton.mp hp
      exact ⟨5, ((parseSize_iff "5*0*x" _).1 _).mp (by decide +kernel)⟩
    · have hzero : parseSize "5*0*x" ['0'] = .error (.invalidSize (.notPositive "5*0*x")) := by
        decide +kernel
      obtain ⟨fault, hfault, ⟨⟩⟩ := ((parseSize_iff _ _).2 _).mp hzero
      exact hfault
  · have hpos : ∀ n ∈ [(12 : UInt64), 3], n ≠ 0 := by simp
    exact (hlabels [12, 3] (List.cons_ne_nil _ _) hpos).1
      ⟨"fill", [12, 3], .float64, .reference, none, none, none, none⟩ rfl

end DenseBench.Run
