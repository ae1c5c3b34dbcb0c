import DenseBench.Engine.Elimination
import DenseBench.Random.Source
import DenseBench.Ufunc.Operand
import DenseBench.Ufunc.ScalarOp

/-!
# Engines

Two ways to carry out the array operations. The reference engine works through every array from
first to last. The parallel engine does the same element by element, in whatever order and pieces
its schedule says; its random fills take a stream of their own for every chunk of fixed size, so
that they depend on the seed alone.
-/

namespace DenseBench

open Text

inductive EngineKind
  | reference
  | parallel
  deriving DecidableEq, Repr

namespace EngineKind

def name : EngineKind → String
  | reference => "reference"
  | parallel => "parallel"

def byName : List (String × EngineKind) :=
  [reference, parallel].map fun k => (k.name, k)

def choices : List (String × EngineKind) :=
  [("reference", reference), ("numpy", reference), ("false", reference), ("0", reference),
    ("no", reference), ("parallel", parallel), ("bohrium", parallel), ("true", parallel),
    ("1", parallel), ("yes", parallel)]

def parse (s : String) : Except Error EngineKind :=
  match choices.lookup (String.ofList (lowerAscii (trim s.toList))) with
  | some kind => .ok kind
  | none => .error (.unknownEngine s)

end EngineKind

inductive Engine
  | reference
  | parallel (schedule : Schedule)

namespace Engine

def kind : Engine → EngineKind
  | reference => .reference
  | parallel _ => .parallel

/-- The number of elements that the parallel engine fills from one stream. -/
def chunkLength : Nat := 2 ^ 14

def chunkCount (len : Nat) : Nat :=
  (len + chunkLength - 1) / chunkLength

variable {α : Type} [Scalar α]

/-- The values of all positions below `n`, in the engine's order. -/
@[specialize]
def tabulate (engine : Engine) (n : Nat) (value : Nat → α) : Array α :=
  match engine with
  | reference => Array.ofFn fun i : Fin n => value i
  | parallel schedule => ((schedule.order 0 n).tabulate Arith.zero fun i => value i).toArray

/-- The samples of a fill of `len` elements, and the source after it. -/
@[specialize]
def fill (engine : Engine) (dtype : ElementType) (len : Nat) (source : Random.Source) :
    Array α × Random.Source :=
  match engine with
  | reference =>
    let (seed, source) := source.next
    (Random.samples dtype seed len, source)
  | parallel schedule =>
    let (seeds, source) := source.take (chunkCount len)
    let chunks := (schedule.order 0 (chunkCount len)).tabulate #[] fun c =>
      Random.samples dtype (seeds.getD c 0) (min chunkLength (len - c * chunkLength))
    (chunks.toArray.flatten, source)

/-- An array of samples in `[0, 1)`. A failing call draws nothing. -/
@[specialize]
def random (engine : Engine) (shape : List Nat) (dtype : ElementType) (source : Random.Source) :
    Except Error (NDArray α × Random.Source) :=
  if dtype.isFloat then
    match NDArray.elementCount shape with
    | .error e => .error e
    | .ok len =>
      let (data, source) := engine.fill dtype len source
      (NDArray.ofData shape dtype data).map fun a => (a, source)
  else
    .error (.unsupportedType dtype.name .random)

@[specialize]
def unary (engine : Engine) (op : ScalarOp) (input : NDArray α) : Except Error (NDArray α) :=
  if op.arity = 1 then
    NDArray.ofData input.shape (op.resultType (some input.dtype) none)
      (engine.tabulate input.data.size fun i => op.applyUnary (input.data.getD i Arith.zero))
  else
    .error (.invalidArgument (.notUnary op.title))

@[specialize]
def binary (engine : Engine) (op : ScalarOp) (lhs rhs : Operand α) : Except Error (NDArray α) :=
  if op.arity = 2 then
    match lhs.commonShape rhs with
    | .error e => .error e
    | .ok shape =>
      NDArray.ofData shape (op.resultType lhs.dtype? rhs.dtype?)
        (engine.tabulate (NDArray.wrappedCount shape) fun i =>
          op.applyBinary (lhs.valueAt i) (rhs.valueAt i))
  else
    .error (.invalidArgument (.notBinary op.title))

/-- All elements folded into one value, from the operation's identity on. -/
@[specialize]
def reduce (engine : Engine) (op : ScalarOp) (input : NDArray α) : Except Error α :=
  match (op.identity? : Option α) with
  | none => .error (.notReducible op.title)
  | some identity =>
    match engine with
    | reference => .ok (input.data.foldl op.applyBinary identity)
    | parallel schedule =>
      .ok ((schedule.cut input.data.size).reduce op.applyBinary identity input.data 0)

/-- The type of the factors of a matrix: a float type stays, any other gives way to double
precision. -/
def factorType (dtype : ElementType) : ElementType :=
  if dtype.isFloat then dtype else .float64

def sweep (engine : Engine) {n : Nat} : Elimination.Sweep α n :=
  match engine with
  | reference => Elimination.Sweep.downward
  | parallel schedule => Elimination.Sweep.scheduled schedule

/-- The unit lower and the upper triangular factor of a square matrix. -/
@[specialize]
def lu (engine : Engine) (input : NDArray α) : Except Error (NDArray α × NDArray α) :=
  match input.squareDim with
  | .error e => .error e
  | .ok n =>
    match Elimination.packedFactors (n := n) engine.sweep input.data with
    | .error e => .error e
    | .ok packed =>
      let dtype := factorType input.dtype
      match NDArray.ofData [n, n] dtype (Elimination.bufferOf n (Elimination.lowerEntry packed)),
        NDArray.ofData [n, n] dtype (Elimination.bufferOf n (Elimination.upperEntry packed)) with
      | .ok lower, .ok upper => .ok (lower, upper)
      | .error e, _ => .error e
      | _, .error e => .error e

end Engine

end DenseBench
