import DenseBench.Proofs.Run.Stage

/-!
# The watch through all calls

Whatever is asked of a bench, and in whatever order, its watch tells the time from the latest start
to the last stop after it. What can be reported or saved depends on that time alone.
-/

namespace DenseBench.Run

open Calendar

/-! ## Marks on a watch -/

/-- A start, or a stop that did not fail with the time that it told. -/
inductive Mark
  | started (reading : Instant)
  | stopped (reading : Instant) (told : Nat)
  deriving DecidableEq, Repr

/-- These marks end with a stop, and `began` is the latest start before it. -/
def Closed (marks : List Mark) (began ended : Instant) (told : Nat) : Prop :=
  ∃ earlier stops, marks = earlier ++ .started began :: (stops ++ [.stopped ended told]) ∧
    ∀ reading, .started reading ∉ stops

namespace Stopwatch

inductive Takes (watch : Stopwatch) : Mark → Stopwatch → Prop
  | started (now : Instant) : Takes watch (.started now) (watch.start now)
  | stopped {now : Instant} {told : Nat} {next : Stopwatch}
      (hstop : watch.stop now = .ok (told, next)) : Takes watch (.stopped now told) next

/-- A new watch that took these marks. -/
inductive Bears : Stopwatch → List Mark → Prop
  | new : Bears {} []
  | mark {watch next : Stopwatch} {marks : List Mark} {mark : Mark} (earlier : Bears watch marks)
      (htakes : watch.Takes mark next) : Bears next (marks ++ [mark])

variable {watch next : Stopwatch} {marks : List Mark} {began ended : Instant} {told : Nat}

theorem stop_eq_ok_iff :
    watch.stop ended = .ok (told, next) ↔
      ∃ began, watch.started = some began ∧ told = ended - began ∧
        next = ⟨some began, some ended⟩ := by
  obtain ⟨_ | began, stopped⟩ := watch
  · simp [stop]
  · simp [stop, eq_comm]

theorem stop_eq_error_iff {e : Error} :
    watch.stop ended = .error e ↔ watch.started = none ∧ e = .timerNotStarted := by
  obtain ⟨_ | began, stopped⟩ := watch
  · simp [stop, eq_comm]
  · simp [stop]

namespace Bears

theorem of_concat {mark : Mark} (h : watch.Bears (marks ++ [mark])) :
    ∃ before : Stopwatch, before.Bears marks ∧ before.Takes mark watch := by
  generalize hall : marks ++ [mark] = all at h
  cases h with
  | new => exact absurd hall (List.append_ne_nil_of_right_ne_nil _ (List.cons_ne_nil _ _))
  | mark earlier htakes =>
    obtain ⟨rfl, hmark⟩ := List.append_inj' hall rfl
    obtain rfl := List.singleton_inj.mp hmark
    exact ⟨_, earlier, htakes⟩

theorem started_eq_none_iff (h : watch.Bears marks) :
    watch.started = none ↔ ∀ reading, .started reading ∉ marks := by
  induction h with
  | new => exact iff_of_true rfl fun reading => List.not_mem_nil
  | mark earlier htakes ih =>
    cases htakes with
    | started now =>
      refine iff_of_false nofun fun hnone => ?_
      exact hnone now (List.mem_append_right _ List.mem_cons_self)
    | stopped hstop =>
      obtain ⟨began, hstarted, -, rfl⟩ := stop_eq_ok_iff.mp hstop
      rw [hstarted] at ih
      refine iff_of_false nofun fun hnone => ?_
      exact nomatch ih.mpr fun reading hmem => hnone reading (List.mem_append_left _ hmem)

theorem exists_latest (h : watch.Bears marks) (hstarted : watch.started = some began) :
    ∃ earlier stops, marks = earlier ++ .started began :: stops ∧
      ∀ reading, .started reading ∉ stops := by
  induction h with
  | new => cases hstarted
  | @mark watch next marks mark earlier htakes ih =>
    cases htakes with
    | started now =>
      cases hstarted
      exact ⟨marks, [], rfl, fun reading => List.not_mem_nil⟩
    | @stopped now told next hstop =>
      -- A stop keeps the start that is there.
      obtain ⟨before, hbefore, -, rfl⟩ := stop_eq_ok_iff.mp hstop
      obtain ⟨front, stops, rfl, hstops⟩ := ih (hbefore.trans hstarted)
      refine ⟨front, stops ++ [.stopped now told], by simp, fun reading hmem => ?_⟩
      rcases List.mem_append.mp hmem with hmem | hmem
      · exact hstops reading hmem
      · exact nomatch List.mem_singleton.mp hmem

theorem started_eq {earlier stops : List Mark}
    (h : watch.Bears (earlier ++ .started began :: stops))
    (hstops : ∀ reading, .started reading ∉ stops) : watch.started = some began := by
  induction stops using List.reverseRecOn generalizing watch with
  | nil =>
    obtain ⟨before, -, htakes⟩ := of_concat h
    cases htakes
    rfl
  | append_singleton stops mark ih =>
    rw [← List.cons_append, ← List.append_assoc] at h
    obtain ⟨before, hbefore, htakes⟩ := of_concat h
    cases htakes with
    | started now => exact absurd (List.mem_append_right _ List.mem_cons_self) (hstops now)
    | stopped hstop =>
      have hstarted := ih hbefore fun reading hmem =>
        hstops reading (List.mem_append_left _ hmem)
      obtain ⟨shown, hshown, -, rfl⟩ := stop_eq_ok_iff.mp hstop
      exact hshown.symm.trans hstarted

theorem eq_of_closed (h : watch.Bears marks) (hclosed : Closed marks began ended told) :
    watch = ⟨some began, some ended⟩ ∧ told = ended - began := by
  obtain ⟨earlier, stops, rfl, hstops⟩ := hclosed
  rw [← List.cons_append, ← List.append_assoc] at h
  obtain ⟨before, hbefore, ⟨⟩ | hstop⟩ := of_concat h
  have hstarted := hbefore.started_eq hstops
  obtain ⟨shown, hshown, htold, hwatch⟩ := stop_eq_ok_iff.mp hstop
  obtain rfl := Option.some.inj (hshown.symm.trans hstarted)
  exact ⟨hwatch, htold⟩

theorem elapsed_iff_closed (h : watch.Bears marks) :
    (∃ d, watch.elapsed? = some d) ↔ ∃ began ended told, Closed marks began ended told := by
  constructor
  · rintro ⟨d, hd⟩
    cases h with
    | new => cases hd
    | mark earlier htakes =>
      cases htakes with
      | started now => cases hd
      | @stopped now told next hstop =>
        obtain ⟨began, hstarted, -, -⟩ := stop_eq_ok_iff.mp hstop
        obtain ⟨front, stops, rfl, hstops⟩ := earlier.exists_latest hstarted
        exact ⟨began, now, told, front, stops, by simp, hstops⟩
  · rintro ⟨began, ended, told, hclosed⟩
    obtain ⟨rfl, -⟩ := h.eq_of_closed hclosed
    exact ⟨_, rfl⟩

end Bears

end Stopwatch

/-! ## Calls -/

/-- What can be asked of a bench, with the readings where the clock is read. -/
inductive Call
  | start (now : Instant)
  | stop (now : Instant)
  | random (shape : List Nat)
  | reportLine
  | result (summary : String) (now : Timestamp) (host : Host)
  | save (summary : String) (around : Surroundings) (scene : Scene)
  | measure (w : Workload) (started stopped : Instant)

def Action.forget {β : Type} (action : Action β) : Action Unit :=
  fun bench => ((action bench).1.map fun _ => (), (action bench).2)

def stopMarks (now : Instant) (bench : Bench) : List Mark :=
  match (Action.stop now bench).1 with
  | .ok told => [.stopped now told]
  | .error _ => []

/-- The marks of a run; one that fails has made those that it came to. -/
def runMarks (α : Type) [Scalar α] (w : Workload) (started stopped : Instant) (bench : Bench) :
    List Mark :=
  match w.prepare (α := α) bench with
  | (.error _, _) => []
  | (.ok input, bench) =>
    match input.perform (Action.start started bench).2 with
    | (.error _, _) => [.started started]
    | (.ok _, bench) => .started started :: stopMarks stopped bench

namespace Call

def setsWatch : Call → Bool
  | start _ | stop _ | measure _ _ _ => true
  | _ => false

variable (α : Type) [Scalar α]

def action : Call → Action Unit
  | start now => .start now
  | stop now => .forget (.stop now)
  | random shape => .forget (.random (α := α) shape)
  | reportLine => .forget fun bench => (bench.reportLine, bench)
  | result summary now host => .forget fun bench => (bench.result summary now host, bench)
  | save summary around scene =>
    .forget fun bench =>
      ((bench.save (m := Stage) summary Machine.now Machine.host around scene).1, bench)
  | measure w started stopped => .forget (w.run (α := α) started stopped)

def marks : Call → Bench → List Mark
  | start now, _ => [.started now]
  | stop now, bench => stopMarks now bench
  | measure w started stopped, bench => runMarks α w started stopped bench
  | _, _ => []

end Call

/-- A bench after some calls, with the marks that they made. -/
structure Course where
  bench : Bench
  marks : List Mark := []

namespace Course

variable (α : Type) [Scalar α]

def next (course : Course) (call : Call) : Course :=
  ⟨(call.action α course.bench).2, course.marks ++ call.marks α course.bench⟩

def ofCalls (bench : Bench) (calls : List Call) : Course :=
  calls.foldl (next α) { bench := bench }

end Course

section calls

variable {α : Type} [Scalar α] {bench : Bench} {marks : List Mark}

theorem bears_start (h : bench.watch.Bears marks) (now : Instant) :
    (Action.start now bench).2.watch.Bears (marks ++ [.started now]) :=
  h.mark (.started now)

theorem bears_stop (h : bench.watch.Bears marks) (now : Instant) :
    (Action.stop now bench).2.watch.Bears (marks ++ stopMarks now bench) := by
  unfold stopMarks Action.stop
  cases hstop : bench.watch.stop now with
  | error e =>
    rw [List.append_nil]
    exact h
  | ok stopped => exact h.mark (.stopped hstop)

theorem bears_run (h : bench.watch.Bears marks) (w : Workload) (started stopped : Instant) :
    (w.run (α := α) started stopped bench).2.watch.Bears
      (marks ++ runMarks α w started stopped bench) := by
  have hwatch := Workload.prepare_keeps (α := α) .watch w bench
  -- Without an input there is no start, and without an outcome no stop.
  rcases hprepare : w.prepare (α := α) bench with ⟨_ | input, prepared⟩
  · rw [hprepare] at hwatch
    rw [Workload.run_apply, runMarks, hprepare, List.append_nil]
    exact hwatch ▸ h
  rw [hprepare] at hwatch
  have hstarted := bears_start (hwatch ▸ h : prepared.watch.Bears marks) started
  have hkept := Workload.perform_keeps .watch input (Action.start started prepared).2
  rcases hperform : input.perform (Action.start started prepared).2 with ⟨_ | outcome, performed⟩
  · rw [hperform] at hkept
    simp only [Workload.run_apply, runMarks, hprepare, hperform]
    exact hkept ▸ hstarted
  rw [hperform] at hkept
  simp only [Workload.run_apply, runMarks, hprepare, hperform]
  rw [← List.singleton_append, ← List.append_assoc]
  exact bears_stop (hkept ▸ hstarted) stopped

theorem watch_action {call : Call} (hsets : call.setsWatch = false) (bench : Bench) :
    (call.action α bench).2.watch = bench.watch := by
  cases call with
  | random shape => exact Action.Keeps.random (α := α) .watch shape bench
  | reportLine => rfl
  | result summary now host => rfl
  | save summary around scene => rfl
  | start | stop | measure => cases hsets

theorem bears_action (h : bench.watch.Bears marks) (call : Call) :
    (call.action α bench).2.watch.Bears (marks ++ call.marks α bench) := by
  cases call with
  | start now => exact bears_start h now
  | stop now => exact bears_stop h now
  | measure w started stopped => exact bears_run h w started stopped
  | random | reportLine | result | save =>
    rw [watch_action rfl]
    exact (List.append_nil marks).symm ▸ h

theorem config_action (call : Call) (bench : Bench) :
    (call.action α bench).2.config = bench.config := by
  cases call with
  | start now => rfl
  | stop now =>
    change (Action.stop now bench).2.config = bench.config
    unfold Action.stop
    split <;> rfl
  | random shape => exact Action.Keeps.random (α := α) .config shape bench
  | reportLine => rfl
  | result summary now host => rfl
  | save summary around scene => rfl
  | measure w started stopped => exact Workload.config_run w started stopped bench

theorem bears_foldl {course : Course} (h : course.bench.watch.Bears course.marks)
    (calls : List Call) :
    (calls.foldl (Course.next α) course).bench.watch.Bears
      (calls.foldl (Course.next α) course).marks := by
  induction calls generalizing course with
  | nil => exact h
  | cons call calls ih => exact ih (bears_action h call)

theorem config_foldl (course : Course) (calls : List Call) :
    (calls.foldl (Course.next α) course).bench.config = course.bench.config := by
  induction calls generalizing course with
  | nil => rfl
  | cons call calls ih => exact (ih _).trans (config_action call course.bench)

end calls

/-! ## What depends on the watch -/

namespace Bench

variable {bench : Bench}

theorem stop_eq_error_iff {now : Instant} {e : Error} :
    (Action.stop now bench).1 = .error e ↔ bench.watch.started = none ∧ e = .timerNotStarted := by
  have hwatch : bench.watch.stop now = .error e ↔ _ := Stopwatch.stop_eq_error_iff
  rw [← hwatch, Action.stop]
  cases bench.watch.stop now <;> simp

theorem eq_of_stop_error {now : Instant} {e : Error} (h : (Action.stop now bench).1 = .error e) :
    (Action.stop now bench).2 = bench := by
  unfold Action.stop at h ⊢
  split at h
  · cases h
  · rfl

theorem exists_reportLine_iff :
    (∃ line, bench.reportLine = .ok line) ↔ ∃ d, bench.elapsed? = some d := by
  unfold reportLine
  cases bench.elapsed? <;> simp

theorem exists_result_iff {summary : String} {now : Timestamp} {host : Host} :
    (∃ record, bench.result summary now host = .ok record) ↔ ∃ d, bench.elapsed? = some d := by
  unfold result
  cases bench.elapsed? <;> simp

variable {summary : String} {around : Surroundings} {scene : Scene}

theorem save_eq_none (hjson : bench.config.json = none) (hcsv : bench.config.csv = none) :
    bench.save (m := Stage) summary Machine.now Machine.host around scene = (.ok none, scene) := by
  rw [save_apply, hjson, hcsv]
  rfl

theorem save_error_iff :
    (bench.save (m := Stage) summary Machine.now Machine.host around scene).1 =
        .error .timerNotStarted ↔
      (bench.config.json ≠ none ∨ bench.config.csv ≠ none) ∧ bench.elapsed? = none := by
  cases helapsed : bench.elapsed? with
  | none =>
    have hresult : bench.result summary around.now around.host = .error .timerNotStarted := by
      rw [result, helapsed]
    rw [save_apply, hresult]
    split
    · rename_i hnone
      rw [Bool.and_eq_true, Option.isNone_iff_eq_none, Option.isNone_iff_eq_none] at hnone
      refine iff_of_false (fun hok => by cases hok) ?_
      rintro ⟨hjson | hcsv, -⟩
      · exact hjson hnone.1
      · exact hcsv hnone.2
    · rename_i hsome
      rw [Bool.and_eq_true, Option.isNone_iff_eq_none, Option.isNone_iff_eq_none,
        not_and_or] at hsome
      exact iff_of_true rfl ⟨hsome, rfl⟩
  | some d =>
    -- Only a file can stop the writing of a record, never the watch.
    obtain ⟨record, hrecord⟩ := exists_result_iff.mpr ⟨d, helapsed⟩
    obtain ⟨trees, hwrites, -⟩ :=
      Mirrors.writeTo record bench.config.json bench.config.csv around scene
    rw [save_of_result hrecord, hwrites]
    refine iff_of_false (fun herror => ?_) fun h => Option.some_ne_none d h.2
    cases hwrite : (record.writeTo (m := StateM FileTree) bench.config.json bench.config.csv
      scene.files).1 with
    | error e =>
      obtain ⟨fault, rfl | rfl⟩ := Record.ofFile_of_writeTo_error hwrite <;>
      · rw [hwrite] at herror
        cases herror
    | ok _ =>
      rw [hwrite] at herror
      cases herror

end Bench

/-- After a course of calls on a bench, everything that tells a time goes by the marks. -/
structure Course.Timed (α : Type) [Scalar α] (config : Config) (course : Course) : Prop where
  elapsed_iff : (∃ d, course.bench.elapsed? = some d) ↔
    ∃ began ended told, Closed course.marks began ended told
  elapsed_eq {began ended : Instant} {told : Nat} : Closed course.marks began ended told →
    course.bench.elapsed? = some told ∧ told = ended - began
  stop_error_iff {now : Instant} {e : Error} : (Action.stop now course.bench).1 = .error e ↔
    (∀ reading, .started reading ∉ course.marks) ∧ e = .timerNotStarted
  bench_of_stop_error {now : Instant} {e : Error} :
    (Action.stop now course.bench).1 = .error e → (Action.stop now course.bench).2 = course.bench
  reportLine_iff : (∃ line, course.bench.reportLine = .ok line) ↔
    ∃ d, course.bench.elapsed? = some d
  result_iff {summary : String} {now : Timestamp} {host : Host} :
    (∃ record, course.bench.result summary now host = .ok record) ↔
      ∃ d, course.bench.elapsed? = some d
  save_error_iff {summary : String} {around : Surroundings} {scene : Scene} :
    (course.bench.save (m := Stage) summary Machine.now Machine.host around scene).1 =
        .error .timerNotStarted ↔
      (config.json ≠ none ∨ config.csv ≠ none) ∧ course.bench.elapsed? = none
  save_eq_none {summary : String} {around : Surroundings} {scene : Scene} :
    config.json = none → config.csv = none →
      course.bench.save (m := Stage) summary Machine.now Machine.host around scene =
        (.ok none, scene)
  /-- A run with an outcome leaves the marks that it made itself. -/
  run_ok {w : Workload} {started stopped : Instant} {outcome : Workload.Outcome α}
      {after : Bench} : w.run started stopped course.bench = (.ok outcome, after) →
    after.watch = ⟨some started, some stopped⟩ ∧ after.elapsed? = some (stopped - started) ∧
      (Call.measure w started stopped).marks α course.bench =
        [.started started, .stopped stopped (stopped - started)]
  watch_eq {call : Call} : call.setsWatch = false →
    (call.action α course.bench).2.watch = course.bench.watch

variable {α : Type} [Scalar α]

theorem runMarks_of_run {w : Workload} {started stopped : Instant} {bench after : Bench}
    {outcome : Workload.Outcome α} (h : w.run started stopped bench = (.ok outcome, after)) :
    runMarks α w started stopped bench =
      [.started started, .stopped stopped (stopped - started)] := by
  obtain ⟨_, _, _, hprepare, hperform, hwatch, -⟩ := Workload.exists_of_run h
  simp [runMarks, hprepare, hperform, stopMarks, Action.stop, Stopwatch.stop, hwatch]

/-- The watch goes by the latest start and the last stop after it, whatever else is asked. -/
theorem Course.timed_of_calls {config : Config} {fresh : UInt64} {pool : Nat → Schedule}
    {refusal : Option UInt64 → Option String} {bench : Bench}
    (h : Bench.create config fresh pool refusal = .ok bench) (calls : List Call) :
    (ofCalls α bench calls).Timed α config := by
  obtain rfl := Bench.eq_of_create h
  have hbears : (ofCalls α (.ofConfig config fresh pool) calls).bench.watch.Bears
      (ofCalls α (.ofConfig config fresh pool) calls).marks := bears_foldl .new calls
  have hconfig : (ofCalls α (.ofConfig config fresh pool) calls).bench.config = config :=
    config_foldl _ calls
  generalize ofCalls α (.ofConfig config fresh pool) calls = course at hbears hconfig
  subst hconfig
  exact {
    elapsed_iff := hbears.elapsed_iff_closed
    elapsed_eq := fun hclosed => by
      obtain ⟨hwatch, rfl⟩ := hbears.eq_of_closed hclosed
      rw [Bench.elapsed?, hwatch]
      exact ⟨rfl, rfl⟩
    stop_error_iff := Bench.stop_eq_error_iff.trans
      (and_congr_left' hbears.started_eq_none_iff)
    bench_of_stop_error := Bench.eq_of_stop_error
    reportLine_iff := Bench.exists_reportLine_iff
    result_iff := Bench.exists_result_iff
    save_error_iff := Bench.save_error_iff
    save_eq_none := Bench.save_eq_none
    run_ok := fun hrun => by
      have hwatch := Workload.watch_of_run hrun
      refine ⟨hwatch, ?_, runMarks_of_run hrun⟩
      rw [Bench.elapsed?, hwatch]
      rfl
    watch_eq := fun hsets => watch_action hsets course.bench }

def onceFour : Config where
  script := "mc"
  sizes := [4, 1]
  dtype := .float64
  engine := .reference
  seed := some 7
  csv := some "points.csv"

/-- A stop before any start, a run for which the sizes are wrong, a clock that runs backwards, and a
second stop. -/
def unruly : List Call :=
  [.stop 3, .measure .lu 5 8, .start 9, .random [2], .stop 4, .reportLine, .stop 30]

theorem Course.timed_of_calls_unruly :
    ∃ bench, Bench.create onceFour 0 (fun _ => .sequential) (fun _ => none) = .ok bench ∧
      (ofCalls Float bench unruly).marks = [.started 9, .stopped 4 0, .stopped 30 21] ∧
      (ofCalls Float bench unruly).bench.elapsed? = some 21 ∧
      ∃ (outcome : Workload.Outcome Float) (after : Bench),
        Workload.monteCarlo.run 40 52 (ofCalls Float bench unruly).bench = (.ok outcome, after) ∧
          after.elapsed? = some 12 := by
  obtain ⟨bench, hcreate⟩ : ∃ bench, Bench.create onceFour 0 (fun _ => .sequential)
      (fun _ => none) = .ok bench := ⟨_, rfl⟩
  have htimed := timed_of_calls (α := Float) hcreate unruly
  have hmarks : (ofCalls Float bench unruly).marks =
      [.started 9, .stopped 4 0, .stopped 30 21] := by
    obtain rfl := Bench.eq_of_create hcreate
    decide +kernel
  have hsucceeds : (Workload.monteCarlo.run (α := Float) 40 52
      (ofCalls Float bench unruly).bench).1.toBool = true := by
    obtain rfl := Bench.eq_of_create hcreate
    decide +kernel
  have hclosed : Closed (ofCalls Float bench unruly).marks 9 30 21 :=
    ⟨[], [.stopped 4 0], hmarks, by simp⟩
  refine ⟨bench, hcreate, hmarks, (htimed.elapsed_eq hclosed).1, ?_⟩
  rcases hrun : Workload.monteCarlo.run (α := Float) 40 52 (ofCalls Float bench unruly).bench with
    ⟨_ | outcome, after⟩
  · rw [hrun] at hsucceeds
    cases hsucceeds
  · exact ⟨outcome, after, rfl, (htimed.run_ok hrun).2.1⟩

end DenseBench.Run
