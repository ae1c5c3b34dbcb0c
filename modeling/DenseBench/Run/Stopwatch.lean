import DenseBench.Error

/-!
# Stopwatches

The marks around the measured part of a run. Clock readings are nanoseconds from some fixed moment.
-/

namespace DenseBench.Run

abbrev Instant := Nat

structure Stopwatch where
  started : Option Instant := none
  stopped : Option Instant := none
  deriving DecidableEq, Repr

namespace Stopwatch

/-- Starts anew; an earlier stop is forgotten. -/
def start (_ : Stopwatch) (now : Instant) : Stopwatch :=
  ⟨some now, none⟩

/-- Stops, or stops again, and tells the time since the start; a clock that ran backwards gives
zero. -/
def stop (watch : Stopwatch) (now : Instant) : Except Error (Nat × Stopwatch) :=
  match watch.started with
  | some began => .ok (now - began, { watch with stopped := some now })
  | none => .error .timerNotStarted

def isRunning (watch : Stopwatch) : Bool :=
  watch.started.isSome && watch.stopped.isNone

/-- The time between the two marks, once both are there. -/
def elapsed? (watch : Stopwatch) : Option Nat :=
  match watch.started, watch.stopped with
  | some began, some ended => some (ended - began)
  | _, _ => none

end Stopwatch

def nanosPerSecond : Nat := 1000000000

def seconds (nanos : Nat) : Float :=
  (UInt64.ofNat (nanos / nanosPerSecond)).toFloat +
    (UInt64.ofNat (nanos % nanosPerSecond)).toFloat / (UInt64.ofNat nanosPerSecond).toFloat

end DenseBench.Run
