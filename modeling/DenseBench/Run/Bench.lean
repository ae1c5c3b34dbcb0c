import DenseBench.Decimal.Layout
import DenseBench.Run.Config
import DenseBench.Run.Record
import DenseBench.Run.Stopwatch

/-!
# Benches

The state of one run: its configuration, its random source, its stopwatch, and the pool that
schedules the calls of its engine. Nothing is shared between two runs. What a failing step has done
before it failed stays done.
-/

namespace DenseBench.Run

open Calendar

structure Bench where
  config : Config
  source : Random.Source
  /-- The schedule that the pool chooses for each call. -/
  pool : Nat → Schedule
  calls : Nat := 0
  watch : Stopwatch := {}

namespace Bench

/-- A new bench. A configuration without a seed takes the fresh one. -/
def ofConfig (config : Config) (freshSeed : UInt64) (pool : Nat → Schedule) : Bench where
  config := config
  source := .ofSeed (config.seed.getD freshSeed)
  pool := pool

/-- The bench of a run. The parallel engine needs a pool of its own, which the machine can refuse
for a number of threads. -/
def create (config : Config) (freshSeed : UInt64) (pool : Nat → Schedule)
    (refusal : Option UInt64 → Option String) : Except Error Bench :=
  match config.engine, refusal config.threads with
  | .parallel, some reason => .error (.threadPool reason)
  | _, _ => .ok (ofConfig config freshSeed pool)

def seed (bench : Bench) : UInt64 :=
  bench.source.seed

def engine (bench : Bench) : Engine :=
  match bench.config.engine with
  | .reference => .reference
  | .parallel => .parallel (bench.pool bench.calls)

def elapsed? (bench : Bench) : Option Nat :=
  bench.watch.elapsed?

def reportLine (bench : Bench) : Except Error String :=
  match bench.elapsed? with
  | none => .error .timerNotStarted
  | some elapsed =>
    .ok (bench.config.script ++ " - engine: " ++ bench.config.engine.name ++
      ", dtype: " ++ bench.config.dtype.name ++ ", size: " ++ bench.config.sizeLabel ++
      ", elapsed-time: " ++ Decimal.fixed 6 (seconds elapsed))

def result (bench : Bench) (summary : String) (now : Timestamp) (host : Host) :
    Except Error Record :=
  match bench.elapsed? with
  | none => .error .timerNotStarted
  | some elapsed =>
    .ok {
      script := bench.config.script
      engine := bench.config.engine
      dtype := bench.config.dtype
      sizes := bench.config.sizes
      elapsedSecs := seconds elapsed
      seed := bench.seed
      summary := summary
      timestamp := now
      host := host }

/-- Writes the record of the run to the files that the configuration names. The time and the host
are asked for only if there are any. -/
def save {m : Type → Type} [Monad m] [Storage m] (bench : Bench) (summary : String)
    (now : m Timestamp) (host : m Host) : ExceptT Error m (Option Record) := do
  if bench.config.json.isNone && bench.config.csv.isNone then return none
  let record ← ExceptT.mk do return bench.result summary (← now) (← host)
  record.writeTo bench.config.json bench.config.csv
  return some record

end Bench

/-- A step of a run, which can fail and changes the bench either way. -/
abbrev Action (β : Type) := ExceptT Error (StateM Bench) β

namespace Action

variable {α : Type} [Scalar α] {β : Type}

def config : Action Config :=
  fun bench => (.ok bench.config, bench)

def fail (e : Error) : Action β :=
  fun bench => (.error e, bench)

/-- One call of the engine. -/
@[inline]
def call (operation : Engine → Except Error β) : Action β :=
  fun bench => (operation bench.engine, { bench with calls := bench.calls + 1 })

/-- An array of samples of the configured type. -/
@[specialize]
def random (shape : List Nat) : Action (NDArray α) :=
  fun bench =>
    match bench.engine.random shape bench.config.dtype bench.source with
    | .ok (a, source) => (.ok a, { bench with source := source, calls := bench.calls + 1 })
    | .error e => (.error e, { bench with calls := bench.calls + 1 })

def start (now : Instant) : Action Unit :=
  fun bench => (.ok (), { bench with watch := bench.watch.start now })

def stop (now : Instant) : Action Nat :=
  fun bench =>
    match bench.watch.stop now with
    | .ok (elapsed, watch) => (.ok elapsed, { bench with watch := watch })
    | .error e => (.error e, bench)

end Action

end DenseBench.Run
