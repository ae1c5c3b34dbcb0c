import DenseBench.Proofs.Run.Outputs
import DenseBench.Proofs.Run.Replay
import DenseBench.Proofs.Run.Report

/-!
# What a command leaves behind

A run that fails before its report has done nothing. After the report only a file that cannot be
written stands in the way, and a run that succeeds has written the record of this run and nothing
else.
-/

namespace DenseBench

open Run

namespace CommandLine

theorem printed_cons_writes {β : Type} (before : FileTree) (text : String) (trees : List FileTree)
    (result : Except Error β) :
    Aftermath.printed ⟨before, .print text :: trees.map .write, result⟩ = text := by
  have hwrites : String.join (trees.map fun tree => Deed.printed (.write tree)) = "" := by
    induction trees with
    | nil => rfl
    | cons tree trees ih => rw [List.map_cons, String.join_cons, ih]; rfl
  rw [Aftermath.printed, List.map_cons, String.join_cons, List.map_map]
  exact (congrArg (text ++ ·) hwrites).trans String.append_empty

theorem linesText_singleton (line : String) : linesText [line] = line ++ "\n" := by
  rw [linesText, List.map_singleton, String.join_cons]
  exact String.append_empty

variable {around : Surroundings} {name : String} {options : List String} {settings : Settings}

namespace Measurement

variable (m : Measurement around name options settings)

/-- The line that is reported. -/
def report : String :=
  m.workload.name ++ " - engine: " ++ m.config.engine.name ++ ", dtype: " ++ m.config.dtype.name ++
    ", size: " ++ sizeLabel m.config.sizes ++ ", elapsed-time: " ++
    Decimal.fixed 6 (seconds (around.stopped - around.started))

/-- The record of the run. -/
def record : Record where
  script := m.workload.name
  engine := m.config.engine
  dtype := m.config.dtype
  sizes := m.config.sizes
  elapsedSecs := seconds (around.stopped - around.started)
  seed := m.config.seed.getD around.freshSeed
  summary := m.outcome.summary
  timestamp := around.now
  host := around.host

/-- What becomes of the files. -/
def writes (files : FileTree) : Except Error Unit × FileTree :=
  m.record.writeTo (m := StateM FileTree) m.config.json m.config.csv files

/-! ## The finished bench -/

theorem script_eq : m.config.script = m.workload.name :=
  (Config.of_ofOptions (plan_eq_ok m.planned)).1

theorem elapsed_finished : m.finished.elapsed? = some (around.stopped - around.started) := by
  rw [Bench.elapsed?, Workload.watch_of_run m.ran]
  rfl

theorem reportLine_finished : m.finished.reportLine = .ok m.report := by
  rw [Bench.reportLine_eq m.elapsed_finished, m.config_finished, m.script_eq]
  rfl

theorem newline_not_mem_report : '\n' ∉ m.report.toList := by
  refine Bench.newline_not_mem_reportLine m.reportLine_finished ?_
  rw [m.config_finished, m.script_eq]
  cases m.workload <;> decide

theorem result_finished :
    m.finished.result m.outcome.summary around.now around.host = .ok m.record := by
  rw [Bench.result, m.elapsed_finished]
  dsimp only
  rw [m.config_finished, m.seed_finished, m.script_eq]
  rfl

/-! ## What is left of the run -/

/-- Once the run has come to an outcome, what is left is a line to print and a record to write. -/
theorem exists_writes (files : FileTree) :
    ∃ trees : List FileTree,
      runWorkload around name options settings files =
        ⟨files, .print (m.report ++ "\n") :: trees.map .write,
          (m.writes files).1.map fun _ =>
            if m.config.json.isNone && m.config.csv.isNone then none else some m.record⟩ ∧
      (trees.map Deed.write).foldl Deed.files files = (m.writes files).2 := by
  obtain ⟨trees, hwrites, hlast⟩ := Mirrors.writeTo m.record m.config.json m.config.csv around
    (Scene.print { files := files } (m.report ++ "\n"))
  refine ⟨trees, ?_, hlast⟩
  rw [m.runWorkload_eq, aftermath, conclude_apply m.reportLine_finished,
    Bench.save_of_result m.result_finished, m.config_finished, linesText_singleton, hwrites]
  rfl

end Measurement

section measure

variable {arguments : List String}
  (hcommand : Command.ofArguments arguments = .measure name options)

include hcommand

theorem run_of_measure (files : FileTree) :
    run around arguments settings files =
      ⟨files, (runWorkload around name options settings files).deeds,
        (runWorkload around name options settings files).result.map fun _ => ()⟩ := by
  unfold run perform
  rw [hcommand]
  dsimp only
  rw [aftermath, Stage.bind_apply, runWorkload, aftermath]
  rcases performWorkload (m := Stage) name options settings around { files := files } with
    ⟨_ | _, _⟩ <;> rfl

theorem Measurement.exists_run (m : Measurement around name options settings) (files : FileTree) :
    ∃ trees : List FileTree,
      run around arguments settings files =
        ⟨files, .print (m.report ++ "\n") :: trees.map .write, (m.writes files).1⟩ ∧
      (trees.map Deed.write).foldl Deed.files files = (m.writes files).2 := by
  obtain ⟨trees, hrun, hlast⟩ := m.exists_writes files
  refine ⟨trees, ?_, hlast⟩
  rw [run_of_measure hcommand, hrun]
  rcases m.writes files with ⟨_ | _, _⟩ <;> rfl

theorem Measurement.result_run (m : Measurement around name options settings) (files : FileTree) :
    (run around arguments settings files).result = (m.writes files).1 := by
  obtain ⟨trees, hrun, -⟩ := m.exists_run hcommand files
  rw [hrun]

theorem Measurement.files_run (m : Measurement around name options settings) (files : FileTree) :
    (run around arguments settings files).files = (m.writes files).2 := by
  obtain ⟨trees, hrun, hlast⟩ := m.exists_run hcommand files
  rw [hrun]
  exact hlast

theorem Measurement.written_of_ok (m : Measurement around name options settings)
    {files : FileTree} (hok : (run around arguments settings files).result = .ok ()) :
    m.record.Written m.config.json m.config.csv files
      (run around arguments settings files).files := by
  rw [m.result_run hcommand] at hok
  rw [m.files_run hcommand]
  exact Record.written_of_writeTo (Prod.ext hok rfl)

end measure

/-- What a command that measures leaves behind: without a run that comes to an outcome nothing, and
with one the report and the files that its record is written to. -/
structure LeavesBehind (around : Surroundings) (name : String) (options : List String)
    (settings : Settings) (files : FileTree) (done : Aftermath Unit) : Prop where
  /-- A command whose run comes to no outcome fails and has done nothing. -/
  unmeasured : IsEmpty (Measurement around name options settings) →
    ∃ e, done = ⟨files, [], .error e⟩
  /-- A command that fails otherwise than at a file that it writes has done nothing. -/
  untouched : ∀ e, done.result = .error e → ¬ e.OfFile →
    done.deeds = [] ∧ done.printed = "" ∧ done.files = files
  /-- Once its run has come to an outcome, the command prints the report of the finished bench, one
  line, before it writes any file. -/
  reported : ∀ m : Measurement around name options settings,
    m.finished.reportLine = .ok m.report ∧ '\n' ∉ m.report.toList ∧
      done.printed = m.report ++ "\n" ∧
      ∃ trees : List FileTree, done.deeds = .print (m.report ++ "\n") :: trees.map .write
  /-- After that only a file that cannot be written can make it fail. -/
  ofFile : Measurement around name options settings →
    ∀ e, done.result = .error e → e.OfFile
  /-- A document that cannot be written is the last that is tried. Whatever part of it was written
  stands at its own place and nothing has changed elsewhere; where it could not even be opened,
  nothing has changed at all. -/
  undocumented : ∀ (m : Measurement around name options settings) json e after,
    m.config.json = some json →
    m.record.save (m := StateM FileTree) json files = (.error e, after) →
    done.result = .error e ∧ done.files = after ∧
      (∀ place, files.locate json ≠ .ok (place, false) →
        done.files.node? place = files.node? place) ∧
      ∀ fault, files.openToWrite json = .error fault → done.files = files
  /-- However the command ends, it changes no file but those that are configured. -/
  elsewhere : ∀ (m : Measurement around name options settings) place,
    (∀ path ∈ m.config.json.toList ++ m.config.csv.toList,
      files.locate path ≠ .ok (place, false)) →
    done.files.node? place = files.node? place
  /-- A command that succeeds has come to an outcome, and returns its record if it was written. -/
  succeeds : done.result = .ok () → ∃ m : Measurement around name options settings,
    (runWorkload around name options settings files).result =
      .ok (if m.config.json.isNone && m.config.csv.isNone then none else some m.record)
  /-- The document is then read as the record of this run, unless both files are one. -/
  document : done.result = .ok () → ∀ (m : Measurement around name options settings) json,
    m.config.json = some json →
    (∀ csv, m.config.csv = some csv → files.locate json ≠ files.locate csv) →
    m.record.IsWritable → Record.load json done.files = .ok m.record
  /-- And the table is what it was with a line behind it that reads as this record, below the header
  if there was nothing yet. -/
  table : done.result = .ok () → ∀ (m : Measurement around name options settings) csv,
    m.config.csv = some csv →
    (∀ json, m.config.json = some json → files.locate json ≠ files.locate csv) →
    ∃ place held line, files.openToWrite csv = .ok (place, held) ∧
      done.files.read csv = .ok (held ++ String.toUTF8 line) ∧
      Record.Tabulates line held.isEmpty [m.record]

theorem aftermath_of_measure {arguments : List String}
    (hcommand : Command.ofArguments arguments = .measure name options) (files : FileTree) :
    LeavesBehind around name options settings files (run around arguments settings files) where
  unmeasured := by
    intro hnone
    rcases runWorkload_cases around name options settings with ⟨e, hfails⟩ | ⟨⟨m⟩⟩
    · exact ⟨e, by rw [run_of_measure hcommand, hfails]; rfl⟩
    · exact hnone.elim m
  untouched := by
    intro e he hfile
    rcases runWorkload_cases around name options settings with ⟨e', hfails⟩ | ⟨⟨m⟩⟩
    · rw [run_of_measure hcommand, hfails]
      exact ⟨rfl, rfl, rfl⟩
    · rw [m.result_run hcommand] at he
      exact absurd (Record.ofFile_of_writeTo_error he) hfile
  reported := by
    intro m
    obtain ⟨trees, hrun, -⟩ := m.exists_run hcommand files
    rw [hrun]
    exact ⟨m.reportLine_finished, m.newline_not_mem_report, printed_cons_writes _ _ _ _, trees, rfl⟩
  ofFile := by
    intro m e he
    rw [m.result_run hcommand] at he
    exact Record.ofFile_of_writeTo_error he
  undocumented := by
    intro m json e after hjson hsave
    have hwrites : m.writes files = (.error e, after) := by
      rw [Measurement.writes, hjson]
      exact Record.writeTo_of_save_error hsave
    have hchanged := Record.changedAt_save (List.mem_singleton_self json) m.record files
    rw [hsave] at hchanged
    rw [m.result_run hcommand, m.files_run hcommand, hwrites]
    refine ⟨rfl, rfl, fun place hplace => ?_, fun fault hopen => ?_⟩
    · refine hchanged.node?_eq place fun path hpath => ?_
      rw [List.mem_singleton.mp hpath]
      exact hplace
    · rw [Record.save_eq, FileTree.write, FileTree.writeBehind, hopen] at hsave
      exact (congrArg Prod.snd hsave).symm
  elsewhere := by
    intro m place hplace
    rw [m.files_run hcommand]
    exact (Record.changedAt_writeTo m.record _ _ files).node?_eq place hplace
  succeeds := by
    intro hok
    rcases runWorkload_cases around name options settings with ⟨e, hfails⟩ | ⟨⟨m⟩⟩
    · rw [run_of_measure hcommand, hfails] at hok
      cases hok
    · obtain ⟨trees, hrun, -⟩ := m.exists_writes files
      rw [m.result_run hcommand] at hok
      refine ⟨m, ?_⟩
      rw [hrun]
      dsimp only
      rw [hok]
      rfl
  document := by
    intro hok m json hjson hdistinct hwritable
    have hwritten := m.written_of_ok hcommand hok
    exact Record.load_of_read hwritable (hwritten.document json hjson hdistinct)
  table := by
    intro hok m csv hcsv hdistinct
    exact (m.written_of_ok hcommand hok).table csv hcsv hdistinct

/-- A machine on which a run takes a quarter of a second. -/
def quarterSecond : Surroundings :=
  { plainSurroundings with stopped := 250000000 }

def fewPoints : List String :=
  ["--size=3*2", "--json=points.json", "--csv=points.csv"]

/-- No more than two bytes get into the document. -/
def fullDisk : FileTree where
  mishap? place _ :=
    if place = ["work", "points.json"] then
      some (.brokenOff ⟨#[123, 10]⟩ false (.machine "No space left on device (os error 28)"))
    else none

def fewPointsRecord : Record where
  script := "mc"
  engine := .reference
  dtype := .float64
  sizes := [3, 2]
  elapsedSecs := seconds 250000000
  seed := 5
  summary := "estimate 2.000000"
  timestamp := ⟨0, 0⟩
  host := ⟨"host", "os", "cpu", 1, 1, 1, "commit", false⟩

namespace Measurement

variable (m : Measurement quarterSecond "mc" fewPoints {})

theorem outputs_fewPoints :
    m.config.json = some "points.json" ∧ m.config.csv = some "points.csv" := by
  have hplan : (plan "mc" fewPoints {}).toOption.map (fun planned =>
      (planned.2.json, planned.2.csv)) = some (some "points.json", some "points.csv") := by
    decide +kernel
  rw [m.planned] at hplan
  exact Prod.mk.inj (Option.some.inj hplan)

theorem record_fewPoints : m.record = fewPointsRecord := by
  have hsaved : (runWorkload quarterSecond "mc" fewPoints {} {}).result.toOption.join.map
      (fun r => (r.script, r.engine, r.dtype, r.sizes, r.seed, r.summary)) =
      some ("mc", .reference, .float64, [3, 2], 5, "estimate 2.000000") := by decide +kernel
  obtain ⟨trees, hrun, -⟩ := m.exists_writes {}
  rw [hrun, m.outputs_fewPoints.1] at hsaved
  cases hwrites : (m.writes {}).1 with
  | error e =>
    rw [hwrites] at hsaved
    cases hsaved
  | ok _ =>
    rw [hwrites] at hsaved
    have hfields := Option.some.inj hsaved
    simp only [Prod.mk.injEq] at hfields
    obtain ⟨hscript, hengine, hdtype, hsizes, hseed, hsummary⟩ := hfields
    calc m.record
      _ = { fewPointsRecord with
            script := m.record.script, engine := m.record.engine, dtype := m.record.dtype
            sizes := m.record.sizes, seed := m.record.seed, summary := m.record.summary } := rfl
      _ = fewPointsRecord := by
        rw [hscript, hengine, hdtype, hsizes, hseed, hsummary]
        rfl

theorem report_fewPoints :
    m.report = "mc - engine: reference, dtype: float64, size: 3*2, elapsed-time: 0.250000" := by
  change m.record.script ++ " - engine: " ++ m.record.engine.name ++ ", dtype: " ++
    m.record.dtype.name ++ ", size: " ++ m.record.sizeLabel ++ ", elapsed-time: " ++
    Decimal.fixed 6 (seconds 250000000) = _
  rw [m.record_fewPoints]
  decide +kernel

end Measurement

theorem aftermath_of_measure_fewPoints :
    (∃ done text, run quarterSecond ("arraybench" :: "mc" :: fewPoints) {} {} = done ∧
      done.printed =
        "mc - engine: reference, dtype: float64, size: 3*2, elapsed-time: 0.250000\n" ∧
      Record.load "points.json" done.files = .ok fewPointsRecord ∧
      done.files.readText "points.csv" = .ok text ∧
      (Csv.read text.toList).map (fun fields => fields.map String.ofList) =
        [["timestamp", "script", "engine", "dtype", "size", "elapsed_secs", "seed", "summary",
            "hostname", "cpu_threads", "git_commit"],
          ["1970-01-01T00:00:00+00:00", "mc", "reference", "float64", "3*2", "0.25", "5",
            "estimate 2.000000", "host", "1", "commit"]]) ∧
    ∃ done, run quarterSecond ("arraybench" :: "mc" :: fewPoints) {} fullDisk = done ∧
      done.result = .error (.file (.machine "No space left on device (os error 28)")) ∧
      done.files.read "points.json" = .ok ⟨#[123, 10]⟩ ∧
      done.files.node? ["work", "points.csv"] = none := by
  have hcommand : Command.ofArguments ("arraybench" :: "mc" :: fewPoints) =
      .measure "mc" fewPoints := rfl
  have hleaves : LeavesBehind quarterSecond "mc" fewPoints {} {}
      (run quarterSecond ("arraybench" :: "mc" :: fewPoints) {} {}) :=
    aftermath_of_measure hcommand {}
  have hbroken : LeavesBehind quarterSecond "mc" fewPoints {} fullDisk
      (run quarterSecond ("arraybench" :: "mc" :: fewPoints) {} fullDisk) :=
    aftermath_of_measure hcommand fullDisk
  have hok : (run quarterSecond ("arraybench" :: "mc" :: fewPoints) {} {}).result = .ok () := by
    decide +kernel
  have hdistinct : FileTree.locate {} "points.json" ≠ FileTree.locate {} "points.csv" := by
    decide +kernel
  obtain ⟨m, -⟩ := hleaves.succeeds hok
  obtain ⟨hjson, hcsv⟩ := m.outputs_fewPoints
  have hwritable : fewPointsRecord.IsWritable :=
    ⟨by with_unfolding_all rfl, by decide +kernel, by decide +kernel⟩
  obtain ⟨-, -, hprinted, -⟩ := hleaves.reported m
  have hload := hleaves.document hok m "points.json" hjson
    (fun csv h => by
      obtain rfl := Option.some.inj (hcsv.symm.trans h)
      exact hdistinct)
    (m.record_fewPoints ▸ hwritable)
  obtain ⟨place, held, line, hopen, hread, htable⟩ := hleaves.table hok m "points.csv" hcsv
    fun json h => by
      obtain rfl := Option.some.inj (hjson.symm.trans h)
      exact hdistinct
  have hheld : FileTree.openToWrite {} "points.csv" = .ok (["work", "points.csv"], .empty) := rfl
  obtain ⟨rfl, rfl⟩ := Prod.mk.inj (Except.ok.inj (hheld.symm.trans hopen))
  rw [ByteArray.empty_append] at hread
  rw [m.record_fewPoints, Record.Tabulates] at htable
  have hstopped : m.record.save (m := StateM FileTree) "points.json" fullDisk =
      (.error (.file (.machine "No space left on device (os error 28)")),
        fullDisk.put ["work", "points.json"] (.file ⟨#[123, 10]⟩)) := rfl
  obtain ⟨hresult, hfiles, helsewhere, -⟩ :=
    hbroken.undocumented m "points.json" _ _ hjson hstopped
  refine ⟨⟨_, line, rfl, ?_, ?_, FileTree.readText_eq_ok hread, ?_⟩, _, rfl, hresult, ?_, ?_⟩
  · rw [hprinted, m.report_fewPoints]
    rfl
  · rw [hload, m.record_fewPoints]
  · rw [htable]
    decide +kernel
  · rw [hfiles]
    rfl
  · rw [helsewhere ["work", "points.csv"] (by decide +kernel)]
    rfl

end CommandLine

end DenseBench
