import DenseBench.Proofs.Run.Agreement

/-!
# Repeatable runs

A whole run agrees on benches that are alike, step by step: its preparation, each round of the
estimate, and the factoring. So the seed decides what a run on any pool returns, and a run whose
fills are short enough returns the same on the reference engine.
-/

namespace DenseBench

open Run

namespace NDArray

theorem elementCount_single {n : Nat} (hn : n < wordLimit) : elementCount [n] = .ok n := by
  rw [elementCount_eq_ok_iff_foldlM]
  simp [multiply?, hn]

end NDArray

variable {α : Type} [Scalar α]

namespace Run.Action.Agrees

variable {w : Workload} {sizes : List UInt64}

theorem unary (op : ScalarOp) (a : NDArray α) :
    Agrees α w sizes (Action.call fun engine => engine.unary op a) fun b => b.shape = a.shape := by
  refine .call (fun engine other _ => ?_) fun engine b hok => ?_
  · rw [Engine.unary_eq_reference engine, Engine.unary_eq_reference other]
  · obtain ⟨-, -, rfl⟩ := Engine.unary_eq_ok_iff.mp hok
    rfl

theorem binary (op : ScalarOp) (a : NDArray α) (rhs : Operand α) :
    Agrees α w sizes (Action.call fun engine => engine.binary op (.array a) rhs)
      fun b => b.shape = a.shape := by
  refine .call (fun engine other _ => ?_) fun engine b hok => ?_
  · rw [Engine.binary_eq_reference engine, Engine.binary_eq_reference other]
  · obtain ⟨-, shape, count, hshape, -, rfl⟩ := Engine.binary_eq_ok_iff.mp hok
    exact Operand.shape_eq_of_commonShape hshape (.inl rfl)

theorem lu (a : NDArray α) :
    Agrees α w sizes (Action.call fun engine => engine.lu a) fun _ => True := by
  refine .call (fun engine other _ => ?_) fun _ _ _ => trivial
  rw [Engine.lu_eq_reference engine, Engine.lu_eq_reference other]

/-- A test on the elements of an array whose shape has room for just as many as are counted. -/
theorem test [CountsExactly α] {op : ScalarOp} (hop : op.isPredicate = true) {a : NDArray α}
    (ha : NDArray.elementCount a.shape = .ok (w.countLength sizes)) (rhs : Operand α) :
    Agrees α w sizes (Action.call fun engine => engine.binary op (.array a) rhs)
      fun b => ∃ flags : List Bool, b.data.toList = flags.map Scalar.ofBool ∧
        flags.length = w.countLength sizes := by
  refine .call (fun engine other _ => ?_) fun engine b hok => ?_
  · rw [Engine.binary_eq_reference engine, Engine.binary_eq_reference other]
  · obtain ⟨flags, hdata, hcount⟩ := Engine.exists_flags_of_binary hop hok
    obtain ⟨-, shape, count, hshape, -, rfl⟩ := Engine.binary_eq_ok_iff.mp hok
    obtain rfl := Operand.shape_eq_of_commonShape hshape (.inl rfl)
    exact ⟨flags, hdata, Except.ok.inj (hcount.symm.trans ha)⟩

theorem count {a : NDArray α} {flags : List Bool} (hdata : a.data.toList = flags.map Scalar.ofBool)
    (hlength : flags.length = w.countLength sizes) :
    Agrees α w sizes (Action.call fun engine => engine.reduce .add a) fun _ => True :=
  .call (fun _ _ hengines => hengines.count hdata hlength) fun _ _ _ => trivial

end Run.Action.Agrees

namespace Workload

open NDArray Run.Action

/-- The input is one that the workload makes from these sizes. -/
def Input.Fits (w : Workload) (sizes : List UInt64) : Input α → Prop
  | matrix _ => True
  | rounds points _ =>
    elementCount [points] = .ok (w.fillLength sizes) ∧ w.countLength sizes = w.fillLength sizes

variable {w : Workload} {sizes : List UInt64}

theorem prepare_agrees :
    Agrees α w sizes (prepare (α := α) w) (Input.Fits w sizes) := by
  unfold prepare
  refine .bind_config ?_ fun config hconfig => ?_
  · intro config config' heq
    simp only [heq]
  · simp only [hconfig]
    split
    · split
      · exact .fail _
      · rename_i n hn
        exact .bind (.random (elementCount_square (Nat.lt_of_not_le hn))) fun a _ => .pure trivial
    · rename_i points count
      exact .pure ⟨elementCount_single points.toNat_lt, rfl⟩
    · exact .fail _

variable [CountsExactly α]

/-- A round draws two arrays and counts truth values of their number. -/
theorem quarterCircle_agrees {points : Nat}
    (hpoints : elementCount [points] = .ok (w.fillLength sizes))
    (hcounted : w.countLength sizes = w.fillLength sizes) :
    Agrees α w sizes (quarterCircle (α := α) points) fun _ => True := by
  unfold quarterCircle
  refine .bind (.random hpoints) fun x hx => ?_
  refine .bind (.random hpoints) fun y hy => ?_
  refine .bind (.binary _ x _) fun x2 hx2 => ?_
  refine .bind (.binary _ y _) fun y2 _ => ?_
  refine .bind (.binary _ x2 _) fun squared hsquared => ?_
  refine .bind (.unary _ squared) fun distance hdistance => ?_
  have hshape : distance.shape = [points] := by rw [hdistance, hsquared, hx2, hx]
  refine .bind (.test rfl (by rw [hshape, hcounted, hpoints]) _) fun inside hinside => ?_
  obtain ⟨flags, hdata, hlength⟩ := hinside
  exact .bind (.count hdata hlength) fun _ _ => .pure trivial

theorem addRounds_agrees {points : Nat}
    (hpoints : elementCount [points] = .ok (w.fillLength sizes))
    (hcounted : w.countLength sizes = w.fillLength sizes) (rounds : Nat) (sum : α) :
    Agrees α w sizes (addRounds points rounds sum) fun _ => True := by
  induction rounds generalizing sum with
  | zero => exact .pure trivial
  | succ rounds ih =>
    rw [addRounds_succ]
    exact .bind (quarterCircle_agrees hpoints hcounted) fun round _ => ih (Scalar.add sum round)

theorem perform_agrees {input : Input α} (hfits : input.Fits w sizes) :
    Agrees α w sizes input.perform fun _ => True := by
  cases input with
  | matrix a => exact .bind (.lu a) fun _ _ => .pure trivial
  | rounds points count =>
    have hsum := addRounds_agrees (α := α) hfits.1 hfits.2 count Arith.zero
    have hmean : Agrees α w sizes (estimatePi (α := α) points count) fun _ => True :=
      .bind hsum fun _ _ => .pure trivial
    exact .bind hmean fun _ _ => .pure trivial

/-- Runs on benches that are alike return the same, whatever their clocks say. -/
theorem run_alike {b c : Bench} (halike : b.Alike α w sizes c)
    (started stopped started' stopped' : Instant) :
    (w.run (α := α) started stopped b).1 = (w.run (α := α) started' stopped' c).1 ∧
      (w.run (α := α) started stopped b).2.Alike α w sizes
        (w.run (α := α) started' stopped' c).2 := by
  rw [run_apply, run_apply]
  obtain ⟨heq, hprepared, hfits⟩ := prepare_agrees b c halike
  rcases hb : w.prepare (α := α) b with ⟨result, b'⟩
  rcases hc : w.prepare (α := α) c with ⟨result', c'⟩
  rw [hb, hc] at heq hprepared
  rw [hb] at hfits
  obtain rfl : result = result' := heq
  cases result with
  | error e => exact ⟨rfl, hprepared⟩
  | ok input =>
    obtain ⟨heq, hperformed, -⟩ :=
      perform_agrees (hfits input rfl) _ _ (hprepared.start started started')
    dsimp only
    rcases hb : input.perform (Action.start started b').2 with ⟨result, b''⟩
    rcases hc : input.perform (Action.start started' c').2 with ⟨result', c''⟩
    rw [hb, hc] at heq hperformed
    obtain rfl : result = result' := heq
    cases result with
    | error e => exact ⟨rfl, hperformed⟩
    | ok outcome => exact hperformed.stop stopped stopped' outcome

end Workload

end DenseBench
