import DenseBench.Engine
import Mathlib.Data.Fintype.EquivFin

/-!
# Independence of the order of visits

A pool that writes every piece once leaves the same result in every order. Elimination below a
pivot row is work of this kind, so every engine sweeps the rows as the reference engine does.
-/

namespace DenseBench

namespace VisitOrder

variable {β : Type} {n : Nat}

theorem visit_injective (order : VisitOrder n) : Function.Injective order.visit :=
  Finite.injective_iff_surjective.mpr order.onto

/-- After the first `m` visits the pieces visited hold their new value, the others their old one. -/
theorem getElem_fold_set (order : VisitOrder n) (value : Fin n → β → β) (start : Vector β n)
    (i : Fin n) (m : Nat) (hm : m ≤ n) :
    (m.fold (fun t h out =>
      let p := order.visit ⟨t, by omega⟩
      out.set p (value p out[p])) start)[i] =
      if ∃ t : Fin n, t.val < m ∧ order.visit t = i then value i start[i] else start[i] := by
  induction m with
  | zero => simp
  | succ m ih =>
    have hprev := ih (by omega)
    rw [Nat.fold_succ]
    by_cases hi : order.visit ⟨m, hm⟩ = i
    · have hnot : ¬ ∃ t : Fin n, t.val < m ∧ order.visit t = i := by
        rintro ⟨t, ht, heq⟩
        have hval := congrArg Fin.val (order.visit_injective (heq.trans hi.symm))
        simp only at hval
        omega
      have hyes : ∃ t : Fin n, t.val < m + 1 ∧ order.visit t = i :=
        ⟨⟨m, hm⟩, Nat.lt_succ_self m, hi⟩
      rw [if_neg hnot] at hprev
      rw [if_pos hyes, ← hprev]
      subst hi
      simp
    · have hiff : (∃ t : Fin n, t.val < m + 1 ∧ order.visit t = i) ↔
          ∃ t : Fin n, t.val < m ∧ order.visit t = i := by
        constructor
        · rintro ⟨t, ht, heq⟩
          rcases Nat.lt_succ_iff_lt_or_eq.mp ht with hlt | heqm
          · exact ⟨t, hlt, heq⟩
          · exact absurd (by rw [← heq]; congr; exact heqm.symm) hi
        · rintro ⟨t, ht, heq⟩
          exact ⟨t, by omega, heq⟩
      have hne : (order.visit ⟨m, hm⟩).val ≠ i.val := fun h => hi (Fin.ext h)
      simp only [hiff]
      rw [← hprev]
      simp [hne]

theorem get_update (order : VisitOrder n) (change : β → β) (pieces : Vector β n) (i : Fin n) :
    (order.update change pieces).get i = change (pieces.get i) := by
  obtain ⟨t, ht⟩ := order.onto i
  exact (order.getElem_fold_set (fun _ x => change x) pieces i n le_rfl).trans
    (if_pos ⟨t, t.isLt, ht⟩)

theorem get_tabulate (order : VisitOrder n) (blank : β) (value : Fin n → β) (i : Fin n) :
    (order.tabulate blank value).get i = value i := by
  obtain ⟨t, ht⟩ := order.onto i
  exact (order.getElem_fold_set (fun p _ => value p) (Vector.replicate n blank) i n le_rfl).trans
    (if_pos ⟨t, t.isLt, ht⟩)

theorem update_eq_map (order : VisitOrder n) (change : β → β) (pieces : Vector β n) :
    order.update change pieces = pieces.map change := by
  ext i hi
  rw [Vector.getElem_map]
  exact order.get_update change pieces ⟨i, hi⟩

theorem tabulate_eq_ofFn (order : VisitOrder n) (blank : β) (value : Fin n → β) :
    order.tabulate blank value = Vector.ofFn value := by
  ext i hi
  rw [Vector.getElem_ofFn]
  exact order.get_tabulate blank value ⟨i, hi⟩

end VisitOrder

namespace Engine

open Elimination

variable {α : Type}

theorem sweep_eq_downward (engine : Engine) {n : Nat} :
    (engine.sweep : Sweep α n) = Sweep.downward := by
  cases engine with
  | reference => rfl
  | parallel schedule =>
    funext step change rows
    apply Subtype.ext
    simp only [sweep, Sweep.scheduled, Sweep.downward]
    split
    · simp [VisitOrder.update_eq_map]
    · rfl

variable [Scalar α]

/-- The factors and the faults of a matrix do not depend on the engine. -/
theorem lu_eq_reference (engine : Engine) (a : NDArray α) : engine.lu a = reference.lu a := by
  simp only [lu, sweep_eq_downward]

theorem tabulate_eq_ofFn (engine : Engine) (n : Nat) (value : Nat → α) :
    engine.tabulate n value = Array.ofFn fun i : Fin n => value i := by
  cases engine with
  | reference => rfl
  | parallel schedule =>
    simp [tabulate, VisitOrder.tabulate_eq_ofFn]

end Engine

end DenseBench
