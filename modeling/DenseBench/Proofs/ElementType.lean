import DenseBench.ElementType
import DenseBench.Proofs.Text.Grammar

/-!
# Texts that name element types

A type is named by its words, in any letter case, after any number of qualifiers and between any
blanks, and by no other text. The order in which these are taken away is part of the rule: blanks
behind a qualifier stay, and a qualifier counts in any letter case.
-/

namespace DenseBench

open Text

namespace ElementType

/-! ## Words -/

/-- Every type has its name, and some have other names. -/
inductive IsWord : ElementType → String → Prop
  | name (t : ElementType) : IsWord t t.name
  | float : IsWord float64 "float"
  | double : IsWord float64 "double"
  | single : IsWord float32 "single"
  | int : IsWord int64 "int"
  | truth : IsWord bool "bool_"

variable {t : ElementType} {word : String}

theorem isWord_of_mem_aliases : ∀ p ∈ aliases, IsWord p.2 p.1 := by
  simp only [aliases, List.forall_mem_cons]
  exact ⟨.float, .double, .single, .int, .truth, nofun⟩

theorem ofName?_eq_some_iff : ofName? word = some t ↔ IsWord t word := by
  constructor
  · intro h
    unfold ofName? at h
    split at h
    · rename_i u hlookup
      obtain rfl := Option.some.inj h
      obtain ⟨before, after, haliases, -⟩ := List.lookup_eq_some_iff.mp hlookup
      exact isWord_of_mem_aliases (word, u) (by simp [haliases])
    · obtain rfl : t.name = word := by simpa using List.find?_some h
      exact .name t
  · intro h
    cases h with
    | name t => exact ofName?_name t
    | float | double | single | int | truth => rfl

/-! ## Qualifiers -/

def qualified (n : Nat) (cs : List Char) : List Char :=
  (List.replicate n "numpy.".toList).flatten ++ cs

theorem qualified_succ (n : Nat) (cs : List Char) :
    qualified (n + 1) cs = "numpy.".toList ++ qualified n cs := by
  simp only [qualified, List.replicate_succ, List.flatten_cons, List.append_assoc]

theorem dropQualifier_qualified (n : Nat) (cs : List Char) :
    dropQualifier (qualified n cs) = dropQualifier cs := by
  induction n with
  | zero => rfl
  | succ n ih =>
    rw [qualified_succ]
    exact ih

theorem exists_eq_qualified (cs : List Char) : ∃ n, cs = qualified n (dropQualifier cs) := by
  fun_induction dropQualifier cs with
  | case1 rest ih =>
    obtain ⟨n, hn⟩ := ih
    refine ⟨n + 1, ?_⟩
    rw [qualified_succ, ← hn]
    rfl
  | case2 cs => exact ⟨0, rfl⟩

/-- No word begins with a qualifier. -/
theorem dropQualifier_of_isWord (h : IsWord t word) : dropQualifier word.toList = word.toList := by
  cases h with
  | name t => cases t <;> rfl
  | float | double | single | int | truth => rfl

theorem isBlank_of_mem_qualified_name {n : Nat} {c : Char} (h : c ∈ qualified n t.name.toList) :
    isBlank c = false := by
  have hqualifier : "numpy.".toList.any isBlank = false := by decide
  have hname : t.name.toList.any isBlank = false := by
    cases t <;> decide
  obtain hc | hc := List.mem_append.mp h
  · obtain ⟨piece, hpiece, hc⟩ := List.mem_flatten.mp hc
    obtain rfl := List.eq_of_mem_replicate hpiece
    exact Bool.eq_false_of_not_eq_true (List.any_eq_false.mp hqualifier c hc)
  · exact Bool.eq_false_of_not_eq_true (List.any_eq_false.mp hname c hc)

/-! ## Texts -/

/-- What is left between the blanks of the text, in lower case, is a word for the type behind some
qualifiers or none. -/
def Names (s : String) (t : ElementType) : Prop :=
  ∃ inner n word, Trims s.toList inner ∧ IsWord t word ∧
    inner.map Char.toLower = qualified n word.toList

theorem names_iff {s : String} :
    Names s t ↔ IsWord t (String.ofList (dropQualifier (lowerAscii (trim s.toList)))) := by
  constructor
  · rintro ⟨inner, n, word, htrims, hword, hlower⟩
    rw [htrims.trim_eq, lowerAscii, hlower, dropQualifier_qualified, dropQualifier_of_isWord hword,
      String.ofList_toList]
    exact hword
  · intro hword
    obtain ⟨n, hn⟩ := exists_eq_qualified (lowerAscii (trim s.toList))
    refine ⟨_, n, _, trims_trim _, hword, ?_⟩
    rw [String.toList_ofList]
    exact hn

theorem parse_iff (s : String) :
    (∀ t, parse s = .ok t ↔ Names s t) ∧
      ∀ e, parse s = .error e ↔ (∀ t, ¬ Names s t) ∧ e = .unsupportedType s .parsing := by
  simp only [names_iff, ← ofName?_eq_some_iff]
  unfold parse
  cases ofName? (String.ofList (dropQualifier (lowerAscii (trim s.toList)))) with
  | none => simp [eq_comm]
  | some t => simp

/-- A text is read as the one type that it names; all others are refused and reported as they
stand. -/
theorem parse_names (s : String) :
    (∀ t, parse s = .ok t ↔ Names s t) ∧
    (∀ t u, Names s t → Names s u → t = u) ∧
    (∀ e, parse s = .error e ↔ (∀ t, ¬ Names s t) ∧ e = .unsupportedType s .parsing) ∧
    ∀ (t : ElementType) (n : Nat) (before text after : List Char),
      s.toList = before ++ text ++ after → (∀ c ∈ before, isBlank c = true) →
      (∀ c ∈ after, isBlank c = true) → text.map Char.toLower = qualified n t.name.toList →
      parse s = .ok t := by
  obtain ⟨hnames, hrefused⟩ := parse_iff s
  refine ⟨hnames, fun t u ht hu => ?_, hrefused, ?_⟩
  · exact Except.ok.inj (((hnames t).mpr ht).symm.trans ((hnames u).mpr hu))
  · intro t n before text after hs hbefore hafter hlower
    have htext : ∀ c ∈ text, isBlank c = false := by
      intro c hc
      have hmem : c.toLower ∈ qualified n t.name.toList := hlower ▸ List.mem_map_of_mem hc
      rw [← isBlank_toLower]
      exact isBlank_of_mem_qualified_name hmem
    refine (hnames t).mpr ⟨text, n, t.name, ?_, .name t, hlower⟩
    rw [hs]
    exact .of_not_blank hbefore hafter htext

theorem parse_names_looseText :
    parse "\t NumPy.NUMPY.Float32\u3000" = .ok float32 ∧
      Names "\t NumPy.NUMPY.Float32\u3000" float32 ∧
      parse "numpy. int8" = .error (.unsupportedType "numpy. int8" .parsing) ∧
      ∀ t, ¬ Names "numpy. int8" t := by
  obtain ⟨hnames, -, -, hloose⟩ := parse_names "\t NumPy.NUMPY.Float32\u3000"
  obtain ⟨-, -, hrefused, -⟩ := parse_names "numpy. int8"
  have hread : parse "\t NumPy.NUMPY.Float32\u3000" = .ok float32 :=
    hloose float32 2 "\t ".toList "NumPy.NUMPY.Float32".toList "\u3000".toList (by decide)
      (List.all_eq_true.mp (by decide)) (List.all_eq_true.mp (by decide)) (by decide)
  have hrefuse : parse "numpy. int8" = .error (.unsupportedType "numpy. int8" .parsing) := by
    decide +kernel
  exact ⟨hread, (hnames _).mp hread, hrefuse, ((hrefused _).mp hrefuse).1⟩

end ElementType

end DenseBench
