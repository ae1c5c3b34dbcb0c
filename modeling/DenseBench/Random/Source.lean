import DenseBench.Random.Cipher
import DenseBench.Scalar

/-!
# Seeded sources and samples

A source is a seed and the number of double words drawn from its stream so far. A fill takes its
samples from the stream of one drawn double word, from the start of that stream on.
-/

namespace DenseBench.Random

structure Source where
  seed : UInt64
  drawn : Nat
  deriving DecidableEq, Repr

namespace Source

def ofSeed (seed : UInt64) : Source :=
  ⟨seed, 0⟩

/-- The double word that `ahead` further draws lead to. -/
def peek (s : Source) (ahead : Nat) : UInt64 :=
  keyDoubleWord (keyOfSeed s.seed) (s.drawn + ahead)

def advance (s : Source) (count : Nat) : Source :=
  { s with drawn := s.drawn + count }

def next (s : Source) : UInt64 × Source :=
  (s.peek 0, s.advance 1)

/-- The next `count` double words, and the source after them. -/
def take (s : Source) (count : Nat) : List UInt64 × Source :=
  let key := keyOfSeed s.seed
  ((List.range count).map fun i => keyDoubleWord key (s.drawn + i), s.advance count)

end Source

variable {α : Type} [Scalar α]

/-- Sample `i` of the stream of a seed: one word for single precision, else a double word. -/
def sample (t : ElementType) (seed : UInt64) (i : Nat) : α :=
  match t with
  | .float32 => Scalar.unit32 (keyWord (keyOfSeed seed) i)
  | _ => Scalar.unit64 (keyDoubleWord (keyOfSeed seed) i)

/-- The samples that one block of sixteen words yields. -/
@[specialize]
def blockSamples (t : ElementType) (w : Words) : Array α :=
  match t with
  | .float32 =>
    #[Scalar.unit32 w.w0, Scalar.unit32 w.w1, Scalar.unit32 w.w2, Scalar.unit32 w.w3,
      Scalar.unit32 w.w4, Scalar.unit32 w.w5, Scalar.unit32 w.w6, Scalar.unit32 w.w7,
      Scalar.unit32 w.w8, Scalar.unit32 w.w9, Scalar.unit32 w.w10, Scalar.unit32 w.w11,
      Scalar.unit32 w.w12, Scalar.unit32 w.w13, Scalar.unit32 w.w14, Scalar.unit32 w.w15]
  | _ =>
    #[Scalar.unit64 (joinWords w.w0 w.w1), Scalar.unit64 (joinWords w.w2 w.w3),
      Scalar.unit64 (joinWords w.w4 w.w5), Scalar.unit64 (joinWords w.w6 w.w7),
      Scalar.unit64 (joinWords w.w8 w.w9), Scalar.unit64 (joinWords w.w10 w.w11),
      Scalar.unit64 (joinWords w.w12 w.w13), Scalar.unit64 (joinWords w.w14 w.w15)]

def samplesPerBlock : ElementType → Nat
  | .float32 => 16
  | _ => 8

/-- The first `len` samples of the stream of a seed, block after block. -/
@[specialize]
def samples (t : ElementType) (seed : UInt64) (len : Nat) : Array α :=
  let key := keyOfSeed seed
  let blocks := (len + samplesPerBlock t - 1) / samplesPerBlock t
  (blocks.fold (fun b _ out => out ++ blockSamples t (block key (UInt64.ofNat b))) #[]).take len

end DenseBench.Random
