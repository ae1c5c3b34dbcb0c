import DenseBench.Run.Bench

/-!
# Workloads

What can be measured: the triangular factors of a random matrix, and the estimate of π from random
points. A workload first prepares its input, then the watch starts, one kernel runs, and the watch
stops.
-/

namespace DenseBench

open Text Run

inductive Workload
  | lu
  | monteCarlo
  deriving DecidableEq, Repr

namespace Workload

def all : List Workload :=
  [lu, monteCarlo]

def name : Workload → String
  | lu => "lu"
  | monteCarlo => "mc"

def description : Workload → String
  | lu => "LU factorization of a random N x N matrix"
  | monteCarlo => "Monte Carlo Pi estimation, I rounds of N samples"

def defaultSizes : Workload → List UInt64
  | lu => [500]
  | monteCarlo => [1000000, 10]

def sizeUsage : Workload → String
  | lu => "N"
  | monteCarlo => "N*I"

def find (name : String) : Except Error Workload :=
  match all.find? (·.name = name) with
  | some w => .ok w
  | none => .error (.unknownWorkload name)

inductive Outcome (α : Type)
  | factors (lower upper : NDArray α)
  | estimate (value : α)

def shapeText {α : Type} (a : NDArray α) : String :=
  bracketed a.shape ++ " " ++ a.dtype.name

def Outcome.summary : Outcome Float → String
  | factors lower upper => "L " ++ shapeText lower ++ ", U " ++ shapeText upper
  | estimate value => "estimate " ++ Decimal.fixed 6 value

variable {α : Type} [Scalar α]

/-! ## Estimating π -/

/-- Four times the part of `n` random points of the unit square that lies in the quarter circle. -/
@[specialize]
def quarterCircle (n : Nat) : Action α := do
  let x : NDArray α ← Action.random [n]
  let y : NDArray α ← Action.random [n]
  let two : Operand α := .scalar (Scalar.ofNat 2)
  let x2 ← Action.call fun engine => engine.binary .power (.array x) two
  let y2 ← Action.call fun engine => engine.binary .power (.array y) two
  let squared ← Action.call fun engine => engine.binary .add (.array x2) (.array y2)
  let distance ← Action.call fun engine => engine.unary .sqrt squared
  let inside ← Action.call fun engine =>
    engine.binary .lessEqual (.array distance) (.scalar (Scalar.ofNat 1))
  let count ← Action.call fun engine => engine.reduce .add inside
  return Arith.div (Arith.mul count (Scalar.ofNat 4)) (Scalar.ofNat n)

/-- The sum of so many rounds, added to what there is. -/
@[specialize]
def addRounds (n : Nat) : Nat → α → Action α
  | 0, sum => fun bench => (.ok sum, bench)
  | rounds + 1, sum => fun bench =>
    match quarterCircle n bench with
    | (.ok round, bench) => addRounds n rounds (Scalar.add sum round) bench
    | (.error e, bench) => (.error e, bench)

/-- The mean of so many rounds of `n` points each. -/
@[specialize]
def estimatePi (n rounds : Nat) : Action α := do
  let sum ← addRounds n rounds Arith.zero
  return Arith.div sum (Scalar.ofNat rounds)

/-! ## Runs -/

/-- What is ready when the watch starts. -/
inductive Input (α : Type)
  | matrix (a : NDArray α)
  | rounds (points count : Nat)

@[specialize]
def prepare (w : Workload) : Action (Input α) := do
  let sizes := (← Action.config).sizes
  match w, sizes with
  | lu, [n] =>
    if wordLimit ≤ n.toNat * n.toNat then
      Action.fail (.invalidSize (.matrixTooLarge n.toNat))
    else
      return .matrix (← Action.random [n.toNat, n.toNat])
  | monteCarlo, [points, count] => return .rounds points.toNat count.toNat
  | _, _ => Action.fail (.invalidSize (.wrongCount w.name w.sizeUsage sizes.length))

@[specialize]
def Input.perform : Input α → Action (Outcome α)
  | matrix a => do
    let (lower, upper) ← Action.call fun engine => engine.lu a
    return .factors lower upper
  | rounds points count => do
    return .estimate (← estimatePi points count)

/-- A whole run, with the clock readings at the two ends of the measured part. -/
@[specialize]
def run (w : Workload) (started stopped : Instant) : Action (Outcome α) := do
  let input : Input α ← w.prepare
  Action.start started
  let outcome ← input.perform
  let _ ← Action.stop stopped
  return outcome

end Workload

end DenseBench
