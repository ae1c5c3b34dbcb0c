import DenseBench.Proofs.Double.Sample
import DenseBench.Proofs.Engine.Fill
import DenseBench.Proofs.Random.Samples
import DenseBench.Run.Bench

/-!
# Random fills by position

Which sample a fill stores at a position, and how many seeds it draws, is told by the position and
the length alone. So fills from one source begin alike, and the parallel engine may stop at the end
of any chunk and go on with another fill.
-/

namespace DenseBench

/-- Where the sample at a position comes from: the number of its seed among those that the fill
draws, and its place in the stream of that seed. -/
def EngineKind.place : EngineKind → Nat → Nat × Nat
  | .reference, i => (0, i)
  | .parallel, i => (i / Engine.chunkLength, i % Engine.chunkLength)

def EngineKind.draws : EngineKind → Nat → Nat
  | .reference, _ => 1
  | .parallel, len => Engine.chunkCount len

def EngineKind.sampleAt {α : Type} [Scalar α] (kind : EngineKind) (dtype : ElementType)
    (source : Random.Source) (i : Nat) : α :=
  Random.sample dtype (source.peek (kind.place i).1) (kind.place i).2

namespace Engine

open NDArray

/-! ## Chunks -/

theorem chunkCount_le_iff {len n : Nat} : chunkCount len ≤ n ↔ len ≤ n * chunkLength := by
  unfold chunkCount chunkLength
  omega

theorem chunkCount_eq_ceil (len : Nat) : chunkCount len = ⌈(len : ℚ) / 16384⌉₊ := by
  apply eq_of_forall_ge_iff
  intro n
  have hcast : (len : ℚ) ≤ n * 16384 ↔ len ≤ n * 16384 := by exact_mod_cast Iff.rfl
  rw [chunkCount_le_iff, Nat.ceil_le, div_le_iff₀ (by norm_num), hcast]
  rfl

theorem chunkCount_add (q m : Nat) : chunkCount (chunkLength * q + m) = q + chunkCount m := by
  unfold chunkCount chunkLength
  omega

theorem chunkCount_mul (q : Nat) : chunkCount (chunkLength * q) = q := by
  unfold chunkCount chunkLength
  omega

/-! ## Fills -/

theorem toList_ofFn {β : Type} (len : Nat) (g : Nat → β) :
    (Array.ofFn fun i : Fin len => g i).toList = (List.range len).map g := by
  apply List.ext_getElem
  · simp
  · simp

variable {α : Type} [Scalar α]

theorem samples_eq_ofFn (dtype : ElementType) (seed : UInt64) (len : Nat) :
    (Random.samples dtype seed len : Array α) =
      Array.ofFn fun i : Fin len => Random.sample dtype seed i := by
  apply Array.toList_inj.mp
  rw [Random.toList_samples, toList_ofFn]

/-- The chunks follow one another, each with the samples of its own seed. -/
theorem flatten_chunks (dtype : ElementType) (source : Random.Source) (len : Nat) :
    (Array.ofFn fun c : Fin (chunkCount len) => (Random.samples dtype (source.peek c)
        (min chunkLength (len - c * chunkLength)) : Array α)).flatten =
      Array.ofFn fun i : Fin len => EngineKind.parallel.sampleAt dtype source i := by
  have hcover : min len (chunkCount len * chunkLength) = len :=
    Nat.min_eq_left (chunkCount_le_iff.mp le_rfl)
  have hplace (c : Nat) {j : Nat} (hj : j < chunkLength) :
      EngineKind.parallel.place (c * chunkLength + j) = (c, j) := by
    unfold EngineKind.place chunkLength at *
    ext <;> simp only <;> omega
  have hchunk (c : Nat) :
      (Random.samples dtype (source.peek c)
          (min chunkLength (len - c * chunkLength)) : Array α).toList =
        (List.range (min chunkLength (len - c * chunkLength))).map fun j =>
          EngineKind.parallel.sampleAt dtype source (c * chunkLength + j) := by
    rw [Random.toList_samples]
    refine List.map_congr_left fun j hj => ?_
    rw [EngineKind.sampleAt, hplace c (lt_min_iff.mp (List.mem_range.mp hj)).1]
  apply Array.toList_inj.mp
  rw [Array.toList_flatten, toList_ofFn, toList_ofFn (chunkCount len) fun c =>
    Random.samples dtype (source.peek c) (min chunkLength (len - c * chunkLength)), List.map_map,
    ← List.flatMap_def]
  simp only [Function.comp_def, hchunk]
  rw [Random.flatMap_pieces, hcover]

theorem fill_eq (engine : Engine) (dtype : ElementType) (len : Nat) (source : Random.Source) :
    (engine.fill dtype len source : Array α × Random.Source) =
      (Array.ofFn fun i : Fin len => engine.kind.sampleAt dtype source i,
        source.advance (engine.kind.draws len)) := by
  cases engine with
  | reference => exact congrArg (·, source.advance 1) (samples_eq_ofFn dtype _ len)
  | parallel schedule =>
    have hseed (c : Fin (chunkCount len)) :
        (source.take (chunkCount len)).1.getD c 0 = source.peek c := by
      simp [Random.Source.take, Random.Source.peek]
    simp only [fill, VisitOrder.tabulate_eq_ofFn, hseed, Vector.toArray_ofFn, flatten_chunks]
    rfl

theorem sampleAt_advance (dtype : ElementType) (source : Random.Source) (q i : Nat) :
    (EngineKind.parallel.sampleAt dtype (source.advance q) i : α) =
      EngineKind.parallel.sampleAt dtype source (chunkLength * q + i) := by
  have hpos : 0 < chunkLength := by decide
  have hseed : (source.advance q).peek (i / chunkLength) = source.peek (q + i / chunkLength) := by
    simp only [Random.Source.peek, Random.Source.advance, Nat.add_assoc]
  simp only [EngineKind.sampleAt, EngineKind.place, Nat.mul_add_div hpos, Nat.mul_add_mod, hseed]

theorem advance_advance (source : Random.Source) (m n : Nat) :
    (source.advance m).advance n = source.advance (m + n) := by
  simp only [Random.Source.advance, Nat.add_assoc]

/-- A fill of whole chunks, and a fill that goes on after them. -/
theorem ofFn_whole_chunks (dtype : ElementType) (source : Random.Source) (q m : Nat) :
    (Array.ofFn fun i : Fin (chunkLength * q + m) =>
        (EngineKind.parallel.sampleAt dtype source i : α)) =
      (Array.ofFn fun i : Fin (chunkLength * q) => EngineKind.parallel.sampleAt dtype source i) ++
        Array.ofFn fun i : Fin m => EngineKind.parallel.sampleAt dtype (source.advance q) i := by
  apply Array.toList_inj.mp
  rw [Array.toList_append, toList_ofFn, toList_ofFn (chunkLength * q), toList_ofFn m,
    List.range_add, List.map_append, List.map_map]
  simp only [Function.comp_def, ← sampleAt_advance]

/-! ## Arrays of samples -/

section Float

variable {shape : List Nat} {dtype : ElementType} {len : Nat} (engine : Engine)
  (source : Random.Source)

/-- The type of the array changes none of its samples. -/
theorem random_eq_ofFn (hfloat : dtype.isFloat = true) (hcount : elementCount shape = .ok len) :
    engine.random shape dtype source =
      .ok (⟨shape, dtype, Array.ofFn fun i : Fin len =>
          (engine.kind.sampleAt dtype source i : Float)⟩,
        source.advance (engine.kind.draws len)) := by
  refine random_eq_ok_iff.mpr ⟨hfloat, len, _, hcount, engine.fill_eq dtype len source, ?_⟩
  refine ofData_eq_ok_iff.mpr ⟨by rw [Array.size_ofFn, hcount], ?_⟩
  congr 1
  apply Array.ext
  · simp
  · intro i hi hi'
    rw [Array.getElem_map, Array.getElem_ofFn]
    exact (Double.coerce_sample hfloat _ _).symm

theorem random_eq_error_of_count {e : Error} (hfloat : dtype.isFloat = true)
    (hcount : elementCount shape = .error e) :
    (engine.random shape dtype source : Except Error (NDArray Float × Random.Source)) =
      .error e := by
  rw [random, if_pos hfloat, hcount]

theorem random_eq_error_of_type (hfloat : dtype.isFloat = false) :
    (engine.random shape dtype source : Except Error (NDArray Float × Random.Source)) =
      .error (.unsupportedType dtype.name .random) :=
  if_neg (by simp [hfloat])

theorem toList_of_random {a : NDArray Float} {after : Random.Source}
    (h : engine.random shape dtype source = .ok (a, after)) :
    a.data.toList = (List.range a.size).map fun i => engine.kind.sampleAt dtype source i := by
  obtain ⟨hfloat, len, -, hcount, -, -⟩ := random_eq_ok_iff.mp h
  rw [random_eq_ofFn engine source hfloat hcount] at h
  cases h
  rw [toList_ofFn, NDArray.size, Array.size_ofFn]

end Float

/-- The samples that random fills store, the seeds they draw, and when they fail. -/
structure FillsByPosition (dtype : ElementType) (source : Random.Source) : Prop where
  next_advance (k : Nat) : (source.advance k).next = (source.peek k, source.advance (k + 1))
  /-- The reference engine draws one seed, also for an empty fill. -/
  reference_eq {shape : List Nat} {len : Nat} : elementCount shape = .ok len →
    dtype.isFloat = true →
    reference.random shape dtype source =
      .ok (⟨shape, dtype, Array.ofFn fun i : Fin len =>
        (Random.sample dtype (source.peek 0) i : Float)⟩, source.advance 1)
  /-- The parallel engine draws a seed for every chunk of 16384 elements. -/
  parallel_eq {shape : List Nat} {len : Nat} : elementCount shape = .ok len →
    dtype.isFloat = true → ∀ schedule,
    (parallel schedule).random shape dtype source =
      .ok (⟨shape, dtype, Array.ofFn fun i : Fin len =>
        (Random.sample dtype (source.peek (i / 16384)) (i % 16384) : Float)⟩,
          source.advance ⌈(len : ℚ) / 16384⌉₊)
  /-- A longer fill begins as a shorter one. -/
  shorter_of_le {engine other : Engine} {shorter longer : List Nat} {a b : NDArray Float}
      {after after' : Random.Source} : engine.kind = other.kind →
    engine.random shorter dtype source = .ok (a, after) →
    other.random longer dtype source = .ok (b, after') → a.size ≤ b.size →
    a.data.toList <+: b.data.toList
  /-- Two fills are one, if the first ends with a chunk. -/
  whole_chunks {q m : Nat} {first second whole : List Nat} :
    elementCount first = .ok (16384 * q) → elementCount second = .ok m →
    elementCount whole = .ok (16384 * q + m) → dtype.isFloat = true →
    ∀ s s' t : Schedule, ∃ (a b c : NDArray Float) (middle after : Random.Source),
      (parallel s).random first dtype source = .ok (a, middle) ∧
        (parallel s').random second dtype middle = .ok (b, after) ∧
          (parallel t).random whole dtype source = .ok (c, after) ∧ c.data = a.data ++ b.data
  /-- The engines agree on what fits into one chunk. -/
  one_chunk {shape : List Nat} {len : Nat} : elementCount shape = .ok len → 1 ≤ len →
    len ≤ 16384 → ∀ schedule,
    ((parallel schedule).random shape dtype source : Except Error (NDArray Float × Random.Source)) =
      reference.random shape dtype source
  error_of_type (engine : Engine) (shape : List Nat) : dtype.isFloat = false →
    (engine.random shape dtype source : Except Error (NDArray Float × Random.Source)) =
      .error (.unsupportedType dtype.name .random)
  error_of_count (engine : Engine) {shape : List Nat} {e : Error} : dtype.isFloat = true →
    elementCount shape = .error e →
    (engine.random shape dtype source : Except Error (NDArray Float × Random.Source)) = .error e
  /-- A call that fails draws nothing. -/
  source_of_error {shape : List Nat} {bench after : Run.Bench} {e : Error} :
    Run.Action.random (α := Float) shape bench = (.error e, after) → after.source = bench.source

theorem random_by_position (dtype : ElementType) (source : Random.Source) :
    FillsByPosition dtype source where
  next_advance k := rfl
  reference_eq hcount hfloat := random_eq_ofFn reference source hfloat hcount
  parallel_eq hcount hfloat schedule := by
    rw [← chunkCount_eq_ceil]
    exact random_eq_ofFn (parallel schedule) source hfloat hcount
  shorter_of_le := by
    intro engine other shorter longer a b after after' hkind ha hb hle
    obtain ⟨rest, hrest⟩ := Nat.exists_eq_add_of_le hle
    rw [toList_of_random engine source ha, toList_of_random other source hb, hkind, hrest,
      List.range_add, List.map_append]
    exact List.prefix_append _ _
  whole_chunks := by
    intro q m first second whole hfirst hsecond hwhole hfloat s s' t
    have hmiddle : (parallel s).kind.draws (16384 * q) = q := chunkCount_mul q
    have hafter : (source.advance q).advance ((parallel s').kind.draws m) =
        source.advance ((parallel t).kind.draws (16384 * q + m)) := by
      rw [advance_advance]
      exact congrArg source.advance (chunkCount_add q m).symm
    have hfirst := random_eq_ofFn (parallel s) source hfloat hfirst
    have hsecond := random_eq_ofFn (parallel s') (source.advance q) hfloat hsecond
    rw [hmiddle] at hfirst
    rw [hafter] at hsecond
    exact ⟨_, _, _, _, _, hfirst, hsecond, random_eq_ofFn (parallel t) source hfloat hwhole,
      ofFn_whole_chunks dtype source q m⟩
  one_chunk hcount hpos hle schedule :=
    random_congr hcount (fill_parallel_eq_reference schedule dtype source hpos hle)
  error_of_type engine shape := random_eq_error_of_type engine source
  error_of_count engine _ _ hfloat hcount := random_eq_error_of_count engine source hfloat hcount
  source_of_error := by
    intro shape bench after e h
    unfold Run.Action.random at h
    split at h <;> cases h
    rfl

/-- One element more than a chunk holds. -/
theorem random_by_position_next_chunk :
    elementCount [5, 3277] = .ok 16385 ∧ ElementType.float32.isFloat = true ∧
      (∃ a : NDArray Float, reference.random [5, 3277] .float32 (.ofSeed 7) =
        .ok (a, (Random.Source.ofSeed 7).advance 1)) ∧
        ∀ schedule, ∃ a : NDArray Float, (parallel schedule).random [5, 3277] .float32 (.ofSeed 7) =
          .ok (a, (Random.Source.ofSeed 7).advance 2) := by
  have hcount : elementCount [5, 3277] = .ok 16385 := rfl
  have hseeds : ⌈((16385 : Nat) : ℚ) / 16384⌉₊ = 2 := by
    rw [← chunkCount_eq_ceil]
    rfl
  have hfills := random_by_position .float32 (.ofSeed 7)
  have hparallel := hfills.parallel_eq hcount rfl
  rw [hseeds] at hparallel
  exact ⟨hcount, rfl, ⟨_, hfills.reference_eq hcount rfl⟩, fun schedule => ⟨_, hparallel schedule⟩⟩

end Engine

end DenseBench
