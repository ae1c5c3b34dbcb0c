import DenseBench.Random.Source
import Mathlib

/-!
# Samples by position

The samples of a seed are made block after block. Sample `i` of them is the sample at position `i`
of the seed's stream, so a number of samples is the beginning of any greater number of them.
-/

namespace DenseBench.Random

/-! ## Pieces of a range -/

/-- Pieces of one length, the last of them cut off, make up the range they cover. -/
theorem flatMap_pieces {β : Type} (g : Nat → β) {k : Nat} (len n : Nat) :
    ((List.range n).flatMap fun c =>
        (List.range (min k (len - c * k))).map fun j => g (c * k + j)) =
      (List.range (min len (n * k))).map g := by
  induction n with
  | zero => simp
  | succ n ih =>
    have hlength : min len ((n + 1) * k) = min len (n * k) + min k (len - n * k) := by
      rw [Nat.add_mul, Nat.one_mul]
      omega
    rw [List.range_succ, List.flatMap_append, ih, List.flatMap_singleton, hlength, List.range_add,
      List.map_append, List.map_map]
    -- the pieces so far cover everything, or the next one starts just where they end
    rcases Nat.le_total len (n * k) with hle | hle
    · have hnone : len - n * k = 0 := Nat.sub_eq_zero_of_le hle
      simp [hnone]
    · rw [Nat.min_eq_right hle]
      rfl

/-! ## Blocks -/

theorem keyWord_block (key : Key) (b : Nat) {j : Nat} (hj : j < 16) :
    keyWord key (b * 16 + j) = (block key (UInt64.ofNat b)).get j := by
  have hblock : (b * 16 + j) / 16 = b := by omega
  have hword : (b * 16 + j) % 16 = j := by omega
  rw [keyWord, hblock, hword]

theorem keyDoubleWord_block (key : Key) (b : Nat) {j : Nat} (hj : j < 8) :
    keyDoubleWord key (b * 8 + j) =
      joinWords ((block key (UInt64.ofNat b)).get (2 * j))
        ((block key (UInt64.ofNat b)).get (2 * j + 1)) := by
  have hlow : 2 * (b * 8 + j) = b * 16 + 2 * j := by ring
  rw [keyDoubleWord, hlow, Nat.add_assoc, keyWord_block key b (by omega),
    keyWord_block key b (by omega)]

variable {α : Type} [Scalar α]

/-- Sample `i` of an arbitrary stream of words. -/
def sampleOf (t : ElementType) (words : Nat → UInt32) (i : Nat) : α :=
  match t with
  | .float32 => Scalar.unit32 (words i)
  | _ => Scalar.unit64 (joinWords (words (2 * i)) (words (2 * i + 1)))

theorem sample_eq_sampleOf (t : ElementType) (seed : UInt64) (i : Nat) :
    (sample t seed i : α) = sampleOf t (keyWord (keyOfSeed seed)) i := by
  cases t <;> rfl

theorem samplesPerBlock_pos (t : ElementType) : 0 < samplesPerBlock t := by
  cases t <;> decide

theorem toList_blockSamples_single (w : Words) :
    (blockSamples .float32 w : Array α).toList =
      (List.range 16).map fun j => Scalar.unit32 (w.get j) :=
  rfl

theorem toList_blockSamples_double {t : ElementType} (h : t ≠ .float32) (w : Words) :
    (blockSamples t w : Array α).toList =
      (List.range 8).map fun j =>
        Scalar.unit64 (joinWords (w.get (2 * j)) (w.get (2 * j + 1))) := by
  cases t <;> first | rfl | exact absurd rfl h

theorem toList_blockSamples (t : ElementType) (seed : UInt64) (b : Nat) :
    (blockSamples t (block (keyOfSeed seed) (UInt64.ofNat b)) : Array α).toList =
      (List.range (samplesPerBlock t)).map fun j => sample t seed (b * samplesPerBlock t + j) := by
  by_cases ht : t = .float32
  · subst ht
    rw [toList_blockSamples_single]
    refine List.map_congr_left fun j hj => congrArg Scalar.unit32 ?_
    exact (keyWord_block _ b (List.mem_range.mp hj)).symm
  · have hcount : samplesPerBlock t = 8 := by
      cases t <;> first | rfl | exact absurd rfl ht
    have hsample (i : Nat) :
        (sample t seed i : α) = Scalar.unit64 (keyDoubleWord (keyOfSeed seed) i) := by
      cases t <;> first | rfl | exact absurd rfl ht
    simp only [toList_blockSamples_double ht, hcount, hsample]
    refine List.map_congr_left fun j hj => congrArg Scalar.unit64 ?_
    exact (keyDoubleWord_block _ b (List.mem_range.mp hj)).symm

theorem toList_fold_blockSamples (t : ElementType) (seed : UInt64) (n : Nat) :
    (n.fold (fun b _ out => out ++ blockSamples t (block (keyOfSeed seed) (UInt64.ofNat b)))
        (#[] : Array α)).toList =
      (List.range (n * samplesPerBlock t)).map fun i => sample t seed i := by
  induction n with
  | zero => simp
  | succ n ih =>
    rw [Nat.fold_succ, Array.toList_append, ih, toList_blockSamples, Nat.add_mul, Nat.one_mul,
      List.range_add, List.map_append, List.map_map]
    rfl

theorem toList_samples (t : ElementType) (seed : UInt64) (len : Nat) :
    (samples t seed len : Array α).toList = (List.range len).map fun i => sample t seed i := by
  have hpos := samplesPerBlock_pos t
  have hcover : len ≤ (len + samplesPerBlock t - 1) / samplesPerBlock t * samplesPerBlock t := by
    have hceil := Nat.lt_div_mul_add (a := len + samplesPerBlock t - 1) hpos
    omega
  simp only [samples]
  rw [Array.take_eq_extract, Array.toList_extract, toList_fold_blockSamples,
    List.extract_eq_take_drop, List.drop_zero, ← List.map_take, List.take_range, Nat.sub_zero,
    Nat.min_eq_left hcover]

end DenseBench.Random
