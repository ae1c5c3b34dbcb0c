import DenseBench.Proofs.Engine.Fill
import DenseBench.Proofs.Traversal
import DenseBench.Workload

/-!
# What a run leaves alone

No action of a run changes the configuration, the pool or the seed, and only the watch's own actions
touch the watch. This is shown once for all that a bench may be asked for which depends neither on
the calls made nor on the draws.
-/

namespace DenseBench

open Run

theorem Engine.seed_fill {α : Type} [Scalar α] (engine : Engine) (dtype : ElementType) (len : Nat)
    (source : Random.Source) :
    (engine.fill dtype len source : Array α × Random.Source).2.seed = source.seed := by
  cases engine <;> rfl

namespace Run.Action

variable {β γ δ : Type}

theorem bind_apply (action : Action β) (next : β → Action γ) (b : Bench) :
    (action >>= next) b =
      match action b with
      | (.ok value, after) => next value after
      | (.error e, after) => (.error e, after) := by
  rw [step_bind_apply]
  rcases action b with ⟨_ | _, _⟩ <;> rfl

/-- The action leaves alone what is asked for, also where it fails. -/
def Keeps (kept : Bench → δ) (action : Action β) : Prop :=
  ∀ b : Bench, kept (action b).2 = kept b

/-- Calls and draws do not change what is asked for. -/
structure Steady (kept : Bench → δ) : Prop where
  calls (b : Bench) (n : Nat) : kept { b with calls := n } = kept b
  source (b : Bench) (s : Random.Source) : s.seed = b.source.seed →
    kept { b with source := s } = kept b

theorem Steady.config : Steady Bench.config :=
  ⟨fun _ _ => rfl, fun _ _ _ => rfl⟩

theorem Steady.watch : Steady Bench.watch :=
  ⟨fun _ _ => rfl, fun _ _ _ => rfl⟩

namespace Keeps

variable {kept : Bench → δ}

theorem pure (value : β) : Keeps kept (pure value) :=
  fun _ => rfl

theorem fail (e : Error) : Keeps kept (Action.fail e : Action β) :=
  fun _ => rfl

theorem config : Keeps kept Action.config :=
  fun _ => rfl

theorem bind {action : Action β} {next : β → Action γ} (haction : Keeps kept action)
    (hnext : ∀ value, Keeps kept (next value)) : Keeps kept (action >>= next) := by
  intro b
  have hb := haction b
  rw [bind_apply]
  rcases hresult : action b with ⟨_ | value, after⟩
  · rw [hresult] at hb
    exact hb
  · rw [hresult] at hb
    exact (hnext value after).trans hb

theorem call (hkept : Steady kept) (operation : Engine → Except Error β) :
    Keeps kept (Action.call operation) :=
  fun b => hkept.calls b (b.calls + 1)

theorem random {α : Type} [Scalar α] (hkept : Steady kept) (shape : List Nat) :
    Keeps kept (Action.random (α := α) shape) := by
  intro b
  unfold Action.random
  cases hrandom : (b.engine.random shape b.config.dtype b.source :
      Except Error (NDArray α × Random.Source)) with
  | error e => exact hkept.calls b (b.calls + 1)
  | ok drawn =>
    obtain ⟨a, source⟩ := drawn
    obtain ⟨-, len, data, -, hfill, -⟩ := Engine.random_eq_ok_iff.mp hrandom
    have hseed : source.seed = b.source.seed := by
      rw [← Engine.seed_fill (α := α) b.engine b.config.dtype len b.source, hfill]
    exact (hkept.calls { b with source := source } (b.calls + 1)).trans
      (hkept.source b source hseed)

end Keeps

end Run.Action

namespace Workload

open Run.Action

variable {α : Type} [Scalar α] {δ : Type} {kept : Bench → δ}

theorem addRounds_succ (points rounds : Nat) (sum : α) :
    addRounds points (rounds + 1) sum =
      quarterCircle points >>= fun round => addRounds points rounds (Scalar.add sum round) := by
  funext bench
  exact (Action.bind_apply _ _ bench).symm

theorem quarterCircle_keeps (hkept : Steady kept) (points : Nat) :
    Keeps kept (quarterCircle (α := α) points) := by
  unfold quarterCircle
  refine .bind (.random hkept _) fun x => ?_
  refine .bind (.random hkept _) fun y => ?_
  refine .bind (.call hkept _) fun x2 => ?_
  refine .bind (.call hkept _) fun y2 => ?_
  refine .bind (.call hkept _) fun squared => ?_
  refine .bind (.call hkept _) fun distance => ?_
  refine .bind (.call hkept _) fun inside => ?_
  exact .bind (.call hkept _) fun count => .pure _

theorem addRounds_keeps (hkept : Steady kept) (points rounds : Nat) (sum : α) :
    Keeps kept (addRounds points rounds sum) := by
  induction rounds generalizing sum with
  | zero => exact .pure sum
  | succ rounds ih =>
    rw [addRounds_succ]
    exact .bind (quarterCircle_keeps hkept points) fun round => ih (Scalar.add sum round)

theorem prepare_keeps (hkept : Steady kept) (w : Workload) :
    Keeps kept (prepare (α := α) w) := by
  unfold prepare
  refine .bind .config fun config => ?_
  dsimp only
  split
  · split
    · exact .fail _
    · exact .bind (.random hkept _) fun a => .pure _
  · exact .pure _
  · exact .fail _

theorem perform_keeps (hkept : Steady kept) (input : Input α) : Keeps kept input.perform := by
  cases input with
  | matrix a => exact .bind (.call hkept _) fun _ => .pure _
  | rounds points count =>
    have hmean : Keeps kept (estimatePi (α := α) points count) :=
      .bind (addRounds_keeps hkept points count Arith.zero) fun sum => .pure _
    exact .bind hmean fun value => .pure _

theorem run_keeps (hkept : Steady kept)
    (hwatch : ∀ (b : Bench) (watch : Stopwatch), kept { b with watch := watch } = kept b)
    (w : Workload) (started stopped : Instant) : Keeps kept (w.run (α := α) started stopped) := by
  have hstart : Keeps kept (Action.start started) := fun b => hwatch b _
  have hstop : Keeps kept (Action.stop stopped) := by
    intro b
    unfold Action.stop
    split
    · exact hwatch b _
    · rfl
  unfold run
  refine .bind (prepare_keeps hkept w) fun input => ?_
  refine .bind hstart fun _ => ?_
  refine .bind (perform_keeps hkept input) fun outcome => ?_
  exact .bind hstop fun elapsed => .pure outcome

theorem run_apply (w : Workload) (started stopped : Instant) (bench : Bench) :
    w.run (α := α) started stopped bench =
      match w.prepare (α := α) bench with
      | (.error e, bench) => (.error e, bench)
      | (.ok input, bench) =>
        match input.perform (Action.start started bench).2 with
        | (.error e, bench) => (.error e, bench)
        | (.ok outcome, bench) =>
          ((Action.stop stopped bench).1.map fun _ => outcome, (Action.stop stopped bench).2) := by
  unfold run
  rw [bind_apply]
  rcases w.prepare bench with ⟨_ | input, prepared⟩
  · rfl
  · change (input.perform >>= _) (Action.start started prepared).2 = _
    rw [bind_apply]
    dsimp only
    rcases input.perform (Action.start started prepared).2 with ⟨_ | outcome, performed⟩
    · rfl
    · dsimp only
      rw [bind_apply]
      rcases Action.stop stopped performed with ⟨_ | _, _⟩ <;> rfl

theorem config_run (w : Workload) (started stopped : Instant) (b : Bench) :
    (w.run (α := α) started stopped b).2.config = b.config :=
  run_keeps .config (fun _ _ => rfl) w started stopped b

theorem seed_run (w : Workload) (started stopped : Instant) (b : Bench) :
    (w.run (α := α) started stopped b).2.seed = b.seed :=
  run_keeps ⟨fun _ _ => rfl, fun _ _ hseed => hseed⟩ (fun _ _ => rfl) w started stopped b

/-- What a run has gone through that comes to an outcome. -/
theorem exists_of_run {w : Workload} {started stopped : Instant} {b after : Bench}
    {outcome : Outcome α} (h : w.run started stopped b = (.ok outcome, after)) :
    ∃ input prepared performed, w.prepare b = (.ok input, prepared) ∧
      input.perform (Action.start started prepared).2 = (.ok outcome, performed) ∧
      performed.watch = ⟨some started, none⟩ ∧
      after = { performed with watch := ⟨some started, some stopped⟩ } := by
  rw [run_apply] at h
  rcases hprepare : w.prepare (α := α) b with ⟨_ | input, prepared⟩
  · rw [hprepare] at h
    cases h
  rw [hprepare] at h
  dsimp only at h
  have hwatch := perform_keeps .watch input (Action.start started prepared).2
  rcases hperform : input.perform (Action.start started prepared).2 with ⟨_ | result, performed⟩
  · rw [hperform] at h
    cases h
  rw [hperform] at h hwatch
  have hrunning : performed.watch = ⟨some started, none⟩ := hwatch
  have hstop : Action.stop stopped performed =
      (.ok (stopped - started), { performed with watch := ⟨some started, some stopped⟩ }) := by
    simp [Action.stop, Stopwatch.stop, hrunning]
  dsimp only at h
  rw [hstop] at h
  cases h
  exact ⟨input, prepared, performed, rfl, hperform, hrunning, rfl⟩

/-- A run that comes to an outcome leaves the watch stopped. -/
theorem watch_of_run {w : Workload} {started stopped : Instant} {b after : Bench}
    {outcome : Outcome α} (h : w.run started stopped b = (.ok outcome, after)) :
    after.watch = ⟨some started, some stopped⟩ := by
  obtain ⟨_, _, _, -, -, -, rfl⟩ := exists_of_run h
  rfl

end Workload

end DenseBench
