import Mathlib.Data.List.Forall2

/-!
# Lists read item by item

Each item of a list is read to a value or to a fault. The whole list gives the values of all items,
or else the fault of the first item that has one. Of the items that set one value the last counts.
Faults can be told in another way without a change to what has none. Steps that change a state are
taken one after the other up to the first that fails.
-/

namespace DenseBench

variable {β γ ε : Type} {read : γ → Except ε β}

/-- A result is told by what it may hold and by its faults, once these leave nothing out. -/
theorem eq_iff_of_total {result : Except ε β} {Holds : β → Prop} {Faults : ε → Prop}
    (hholds : ∀ x, Holds x → result = .ok x) (hfaults : ∀ e, Faults e → result = .error e)
    (htotal : (∃ x, Holds x) ∨ ∃ e, Faults e) :
    (∀ x, result = .ok x ↔ Holds x) ∧ ∀ e, result = .error e ↔ Faults e := by
  rcases htotal with ⟨y, hy⟩ | ⟨f, hf⟩
  · have hresult := hholds y hy
    constructor
    · intro x
      refine ⟨fun h => ?_, hholds x⟩
      obtain rfl := Except.ok.inj (hresult.symm.trans h)
      exact hy
    · intro e
      exact ⟨fun h => (nomatch hresult.symm.trans h), hfaults e⟩
  · have hresult := hfaults f hf
    constructor
    · intro x
      exact ⟨fun h => (nomatch hresult.symm.trans h), hholds x⟩
    · intro e
      refine ⟨fun h => ?_, hfaults e⟩
      obtain rfl := Except.error.inj (hresult.symm.trans h)
      exact hf

theorem mapError_eq_ok_iff {ε' : Type} {f : ε → ε'} {result : Except ε β} {x : β} :
    result.mapError f = .ok x ↔ result = .ok x := by
  cases result <;> simp [Except.mapError]

theorem mapError_eq_error_iff {ε' : Type} {f : ε → ε'} {result : Except ε β} {e' : ε'} :
    result.mapError f = .error e' ↔ ∃ e, result = .error e ∧ f e = e' := by
  cases result <;> simp [Except.mapError]

theorem mapM_cons_of_ok {part : γ} {x : β} (h : read part = .ok x) (parts : List γ) :
    (part :: parts).mapM read = (parts.mapM read).map (x :: ·) := by
  rw [List.mapM_cons, h]
  cases parts.mapM read <;> rfl

theorem mapM_cons_of_error {part : γ} {e : ε} (h : read part = .error e) (parts : List γ) :
    (part :: parts).mapM read = .error e := by
  rw [List.mapM_cons, h]
  rfl

theorem mapM_eq_ok_iff {parts : List γ} {xs : List β} :
    parts.mapM read = .ok xs ↔ List.Forall₂ (fun part x => read part = .ok x) parts xs := by
  induction parts generalizing xs with
  | nil =>
    rw [List.forall₂_nil_left_iff]
    exact ⟨fun h => (Except.ok.inj h).symm, fun h => h ▸ rfl⟩
  | cons part parts ih =>
    rw [List.forall₂_cons_left_iff]
    cases hpart : read part with
    | error e =>
      rw [mapM_cons_of_error hpart]
      constructor
      · rintro ⟨⟩
      · rintro ⟨x, rest, ⟨⟩, -⟩
    | ok x =>
      rw [mapM_cons_of_ok hpart]
      constructor
      · intro h
        cases hparts : parts.mapM read with
        | error e =>
          rw [hparts] at h
          cases h
        | ok rest =>
          rw [hparts] at h
          cases h
          exact ⟨x, rest, rfl, ih.mp hparts, rfl⟩
      · rintro ⟨y, rest, ⟨⟩, hrest, rfl⟩
        rw [ih.mpr hrest]
        rfl

theorem mapM_map_eq_ok {write : β → γ} {xs : List β} (h : ∀ x ∈ xs, read (write x) = .ok x) :
    (xs.map write).mapM read = .ok xs := by
  rw [mapM_eq_ok_iff, List.forall₂_map_left_iff, List.forall₂_same]
  exact h

theorem of_mapM_eq_ok {parts : List γ} {xs : List β} (h : parts.mapM read = .ok xs) :
    xs.length = parts.length ∧ ∀ x ∈ xs, ∃ part ∈ parts, read part = .ok x := by
  have hread := mapM_eq_ok_iff.mp h
  refine ⟨hread.length_eq.symm, ?_⟩
  clear h
  induction hread with
  | nil => nofun
  | @cons part x parts xs hpart _ ih =>
    intro y hy
    rcases List.mem_cons.mp hy with rfl | hy
    · exact ⟨part, List.mem_cons_self, hpart⟩
    · obtain ⟨other, hother, hy⟩ := ih y hy
      exact ⟨other, List.mem_cons_of_mem _ hother, hy⟩

theorem exists_forall₂_iff {R : γ → β → Prop} {parts : List γ} :
    (∃ xs, List.Forall₂ R parts xs) ↔ ∀ part ∈ parts, ∃ x, R part x := by
  induction parts with
  | nil => exact ⟨fun _ => nofun, fun _ => ⟨[], .nil⟩⟩
  | cons part parts ih =>
    rw [List.forall_mem_cons, ← ih]
    constructor
    · rintro ⟨xs, h⟩
      cases h with
      | cons hx hxs => exact ⟨⟨_, hx⟩, _, hxs⟩
    · rintro ⟨⟨x, hx⟩, xs, hxs⟩
      exact ⟨x :: xs, .cons hx hxs⟩

/-- The fault is that of the leftmost item that is refused. -/
theorem mapM_eq_error_iff {parts : List γ} {e : ε} :
    parts.mapM read = .error e ↔
      ∃ before part after, parts = before ++ part :: after ∧
        (∀ p ∈ before, ∃ x, read p = .ok x) ∧ read part = .error e := by
  induction parts with
  | nil =>
    constructor
    · rintro ⟨⟩
    · rintro ⟨before, part, after, hparts, -⟩
      exact absurd hparts.symm (List.append_ne_nil_of_right_ne_nil before (List.cons_ne_nil _ _))
  | cons first parts ih =>
    cases hfirst : read first with
    | error e' =>
      rw [mapM_cons_of_error hfirst, Except.error.injEq]
      constructor
      · rintro rfl
        exact ⟨[], first, parts, rfl, nofun, hfirst⟩
      · rintro ⟨before, part, after, hparts, hbefore, hpart⟩
        cases before with
        | nil =>
          cases hparts
          exact Except.error.inj (hfirst.symm.trans hpart)
        | cons head before =>
          cases hparts
          obtain ⟨x, hx⟩ := hbefore first List.mem_cons_self
          cases hfirst.symm.trans hx
    | ok x =>
      have hmap : ((parts.mapM read).map (x :: ·) = .error e) ↔ parts.mapM read = .error e := by
        cases parts.mapM read <;> simp [Except.map]
      rw [mapM_cons_of_ok hfirst, hmap, ih]
      constructor
      · rintro ⟨before, part, after, rfl, hbefore, hpart⟩
        refine ⟨first :: before, part, after, rfl, ?_, hpart⟩
        intro p hp
        rcases List.mem_cons.mp hp with rfl | hp
        · exact ⟨x, hfirst⟩
        · exact hbefore p hp
      · rintro ⟨before, part, after, hparts, hbefore, hpart⟩
        cases before with
        | nil =>
          cases hparts
          cases hfirst.symm.trans hpart
        | cons head before =>
          cases hparts
          exact ⟨before, part, after, rfl,
            fun p hp => hbefore p (List.mem_cons_of_mem _ hp), hpart⟩

/-- What a run of changes leaves of one value, if each change sets the value or lets it be. -/
theorem get_foldl {σ κ τ : Type} {apply : σ → κ → σ} {get : σ → Option τ} {set? : κ → Option τ}
    (h : ∀ s k, get (apply s k) = (set? k).or (get s)) (s : σ) (ks : List κ) :
    get (ks.foldl apply s) = (ks.filterMap set?).getLast?.or (get s) := by
  induction ks generalizing s with
  | nil => rfl
  | cons k ks ih =>
    rw [List.foldl_cons, ih, h, List.filterMap_cons]
    cases set? k with
    | none => rfl
    | some x =>
      dsimp only
      rw [List.getLast?_cons]
      cases (ks.filterMap set?).getLast? <;> rfl

/-- A step that fails leaves the state that it has come to, and nothing is done after it. -/
theorem step_bind_apply {σ : Type} (step : ExceptT ε (StateM σ) β)
    (next : β → ExceptT ε (StateM σ) γ) (s : σ) :
    (step >>= next) s =
      match step s with
      | (.ok value, after) => next value after
      | (.error e, after) => (.error e, after) := by
  change (ExceptT.bindCont next (step s).1) (step s).2 = _
  rcases step s with ⟨_ | _, _⟩ <;> rfl

end DenseBench
