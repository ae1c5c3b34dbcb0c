import DenseBench.Proofs.Engine.Position
import DenseBench.Proofs.Run.Repeatable
import DenseBench.Proofs.SymbolTable

/-!
# The estimate counts points

A round of the estimate never fails once its samples are drawn: it is four times the part of the
points that lie in the quarter circle, and these are counted exactly. Every fill of a run takes
seeds of its own, so that each point is drawn once.
-/

namespace DenseBench

open NDArray Run

/-! ## Arrays of one dimension -/

def NDArray.row {α : Type} (dtype : ElementType) (n : Nat) (value : Nat → α) : NDArray α :=
  ⟨[n], dtype, Array.ofFn fun i : Fin n => value i⟩

namespace Engine

variable {α : Type} [Scalar α] (engine : Engine) {op : ScalarOp} {n : Nat}

theorem unary_row (hop : op.arity = 1) (hn : n < wordLimit) (t : ElementType) (x : Nat → α) :
    engine.unary op (row t n x) =
      .ok (row (op.resultType (some t) none) n fun i =>
        Scalar.coerce (op.resultType (some t) none) (op.applyUnary (x i))) := by
  refine unary_eq_ok_iff.mpr ⟨hop, ?_, ?_⟩
  · rw [row, Array.size_ofFn]
    exact elementCount_single hn
  · rw [row, row, Array.map_ofFn, Array.map_ofFn]
    rfl

theorem valueAt_row (t : ElementType) (x : Nat → α) (i : Fin n) :
    (Operand.array (row t n x)).valueAt i = x i := by
  simp [Operand.valueAt, row]

theorem binary_row_scalar (hop : op.arity = 2) (hn : n < wordLimit) (t : ElementType)
    (x : Nat → α) (c : α) :
    engine.binary op (.array (row t n x)) (.scalar c) =
      .ok (row (op.resultType (some t) none) n fun i =>
        Scalar.coerce (op.resultType (some t) none) (op.applyBinary (x i) c)) := by
  refine binary_eq_ok_iff.mpr ⟨hop, [n], n, rfl, elementCount_single hn, ?_⟩
  simp only [combined, valueAt_row, Array.map_ofFn]
  rfl

theorem binary_row_row (hop : op.arity = 2) (hn : n < wordLimit) (t : ElementType)
    (x y : Nat → α) :
    engine.binary op (.array (row t n x)) (.array (row t n y)) =
      .ok (row (op.resultType (some t) (some t)) n fun i =>
        Scalar.coerce (op.resultType (some t) (some t)) (op.applyBinary (x i) (y i))) := by
  refine binary_eq_ok_iff.mpr ⟨hop, [n], n, if_pos rfl, elementCount_single hn, ?_⟩
  simp only [combined, valueAt_row, Array.map_ofFn]
  rfl

/-- The sum of a row of truth values is the number of the positions where they hold. -/
theorem reduce_row [CountsExactly α] (hn : n ≤ 2 ^ 53) (flag : Nat → Bool) :
    engine.reduce .add (row .bool n fun i => (Scalar.ofBool (flag i) : α)) =
      .ok (Scalar.ofNat ((List.range n).countP flag)) := by
  have hdata : (row .bool n fun i => (Scalar.ofBool (flag i) : α)).data.toList =
      ((List.range n).map flag).map Scalar.ofBool := by
    rw [row, toList_ofFn n fun i => (Scalar.ofBool (flag i) : α), List.map_map]
    rfl
  have hcount : ((List.range n).map flag).count true = (List.range n).countP flag := by
    rw [List.count, List.countP_map]
    exact List.countP_congr fun j _ => by simp
  rw [reduce_add_ofBool engine hdata (by simpa using hn), hcount]

end Engine

namespace Run

theorem Bench.kind_engine (bench : Bench) : bench.engine.kind = bench.config.engine := by
  unfold Bench.engine
  cases bench.config.engine <;> rfl

namespace Action

variable {β γ : Type}

theorem bind_of_ok {action : Action β} {next : β → Action γ} {bench after : Bench} {value : β}
    (h : action bench = (.ok value, after)) : (action >>= next) bench = next value after := by
  rw [bind_apply, h]

theorem bind_of_error {action : Action β} {next : β → Action γ} {bench after : Bench} {e : Error}
    (h : action bench = (.error e, after)) : (action >>= next) bench = (.error e, after) := by
  rw [bind_apply, h]

theorem call_of_ok {operation : Engine → Except Error β} {value : β} (bench : Bench)
    (h : ∀ engine, operation engine = .ok value) :
    Action.call operation bench = (.ok value, { bench with calls := bench.calls + 1 }) := by
  rw [call, h]

theorem random_row (bench : Bench) (hfloat : bench.config.dtype.isFloat = true) {n : Nat}
    (hn : n < wordLimit) :
    Action.random [n] bench =
      (.ok (row bench.config.dtype n fun i =>
          (bench.config.engine.sampleAt bench.config.dtype bench.source i : Float)),
        { bench with
          source := bench.source.advance (bench.config.engine.draws n),
          calls := bench.calls + 1 }) := by
  unfold Action.random
  rw [Engine.random_eq_ofFn bench.engine bench.source hfloat (elementCount_single hn),
    Bench.kind_engine]
  rfl

theorem random_of_type {bench : Bench} (hfloat : bench.config.dtype.isFloat = false)
    (shape : List Nat) :
    (Action.random shape : Action (NDArray Float)) bench =
      (.error (.unsupportedType bench.config.dtype.name .random),
        { bench with calls := bench.calls + 1 }) := by
  unfold Action.random
  rw [Engine.random_eq_error_of_type bench.engine bench.source hfloat]

end Action

end Run

namespace Workload

open Run.Action

/-- The test of a point, each step rounded to the type. -/
def inQuarterCircle (dtype : ElementType) (x y : Float) : Bool :=
  let square (z : Float) : Float := Scalar.coerce dtype (z * z)
  Scalar.lessEq (Scalar.coerce dtype (Scalar.sqrt (Scalar.coerce dtype (square x + square y))))
    (Scalar.ofNat 1)

/-- Sample `j` of fill `k`, of all fills of length `n` from the source on. -/
def fillAt (kind : EngineKind) (dtype : ElementType) (source : Random.Source) (n k j : Nat) :
    Float :=
  kind.sampleAt dtype (source.advance (k * kind.draws n)) j

/-- The points of a round that are in the quarter circle. -/
def hits (kind : EngineKind) (dtype : ElementType) (source : Random.Source) (n round : Nat) : Nat :=
  (List.range n).countP fun j =>
    inQuarterCircle dtype (fillAt kind dtype source n (2 * round) j)
      (fillAt kind dtype source n (2 * round + 1) j)

/-- Adds up the parts of `n` points, four times each, and takes the mean of the rounds. -/
def meanOfCounts {β : Type} (ofNat : Nat → β) (add mul div : β → β → β) (n : Nat)
    (counts : List Nat) : β :=
  div (counts.foldl (fun sum c => add sum (div (mul (ofNat c) (ofNat 4)) (ofNat n))) (ofNat 0))
    (ofNat counts.length)

theorem resultType_of_isFloat {t : ElementType} (h : t.isFloat = true) :
    ScalarOp.power.resultType (some t) none = t ∧ ScalarOp.add.resultType (some t) (some t) = t ∧
      ScalarOp.sqrt.resultType (some t) none = t := by
  cases t <;> first | exact ⟨rfl, rfl, rfl⟩ | cases h

theorem applyBinary_power_two (x : Float) :
    ScalarOp.power.applyBinary x (Scalar.ofNat 2) = x * x := by
  have hsame : Scalar.same (Scalar.ofNat 2 : Float) (Scalar.ofNat 2) = true := by decide +kernel
  rw [ScalarOp.applyBinary, if_pos hsame]
  rfl

theorem coerce_lessEqual (dtype : ElementType) (x y : Float) :
    Scalar.coerce .bool (ScalarOp.lessEqual.applyBinary
      (Scalar.coerce dtype (ScalarOp.sqrt.applyUnary (Scalar.coerce dtype
        (ScalarOp.add.applyBinary
          (Scalar.coerce dtype (ScalarOp.power.applyBinary x (Scalar.ofNat 2)))
          (Scalar.coerce dtype (ScalarOp.power.applyBinary y (Scalar.ofNat 2)))))))
      (Scalar.ofNat 1)) = Scalar.ofBool (inQuarterCircle dtype x y) := by
  rw [applyBinary_power_two, applyBinary_power_two]
  exact CountsExactly.coerce_ofBool _

section Fills

variable (kind : EngineKind) (dtype : ElementType) (source : Random.Source) (n : Nat)

theorem fillAt_advance (round k j : Nat) :
    fillAt kind dtype (source.advance (2 * round * kind.draws n)) n k j =
      fillAt kind dtype source n (2 * round + k) j := by
  rw [fillAt, fillAt, Engine.advance_advance, Nat.add_mul]

theorem hits_advance (round later : Nat) :
    hits kind dtype (source.advance (2 * round * kind.draws n)) n later =
      hits kind dtype source n (round + later) := by
  simp only [hits, fillAt_advance, Nat.mul_add, Nat.add_assoc]

theorem hits_zero :
    hits kind dtype source n 0 = (List.range n).countP fun j =>
      inQuarterCircle dtype (kind.sampleAt dtype source j)
        (kind.sampleAt dtype (source.advance (kind.draws n)) j) := by
  have hfirst (j : Nat) : fillAt kind dtype source n (2 * 0) j = kind.sampleAt dtype source j := by
    simp [fillAt, Random.Source.advance]
  have hsecond (j : Nat) : fillAt kind dtype source n (2 * 0 + 1) j =
      kind.sampleAt dtype (source.advance (kind.draws n)) j := by
    simp [fillAt]
  simp only [hits, hfirst, hsecond]

end Fills

def part (n count : Nat) : Float :=
  Arith.div (Arith.mul (Scalar.ofNat count) (Scalar.ofNat 4)) (Scalar.ofNat n)

theorem quarterCircle_eq (bench : Bench) (hfloat : bench.config.dtype.isFloat = true) {n : Nat}
    (hn : n ≤ 2 ^ 53) :
    quarterCircle (α := Float) n bench =
      (.ok (part n (hits bench.config.engine bench.config.dtype bench.source n 0)),
        { bench with
          source := bench.source.advance (2 * bench.config.engine.draws n),
          calls := bench.calls + 8 }) := by
  have hword : n < wordLimit := by
    unfold wordLimit
    omega
  obtain ⟨hpower, hadd, hsqrt⟩ := resultType_of_isFloat hfloat
  have hbool : ScalarOp.lessEqual.resultType (some bench.config.dtype) none = .bool := rfl
  unfold quarterCircle
  rw [bind_of_ok (random_row bench hfloat hword),
    bind_of_ok (random_row { bench with
      source := bench.source.advance (bench.config.engine.draws n), calls := bench.calls + 1 }
        hfloat hword)]
  dsimp only
  rw [bind_of_ok (call_of_ok _ fun engine => engine.binary_row_scalar rfl hword _ _ _),
    bind_of_ok (call_of_ok _ fun engine => engine.binary_row_scalar rfl hword _ _ _), hpower,
    bind_of_ok (call_of_ok _ fun engine => engine.binary_row_row rfl hword _ _ _), hadd,
    bind_of_ok (call_of_ok _ fun engine => engine.unary_row rfl hword _ _), hsqrt,
    bind_of_ok (call_of_ok _ fun engine => engine.binary_row_scalar rfl hword _ _ _), hbool]
  simp only [coerce_lessEqual]
  rw [bind_of_ok (call_of_ok _ fun engine => engine.reduce_row hn _), hits_zero,
    Engine.advance_advance, ← Nat.two_mul]
  rfl

theorem quarterCircle_of_type (bench : Bench) (hfloat : bench.config.dtype.isFloat = false)
    (n : Nat) :
    quarterCircle (α := Float) n bench =
      (.error (.unsupportedType bench.config.dtype.name .random),
        { bench with calls := bench.calls + 1 }) :=
  bind_of_error (random_of_type hfloat [n])

/-! ## Rounds -/

theorem addRounds_eq (bench : Bench) (hfloat : bench.config.dtype.isFloat = true) {n : Nat}
    (hn : n ≤ 2 ^ 53) (rounds : Nat) (sum : Float) :
    addRounds n rounds sum bench =
      (.ok (((List.range rounds).map fun t =>
          hits bench.config.engine bench.config.dtype bench.source n t).foldl
            (fun sum c => Scalar.add sum (part n c)) sum),
        { bench with
          source := bench.source.advance (2 * rounds * bench.config.engine.draws n),
          calls := bench.calls + rounds * 8 }) := by
  induction rounds generalizing bench sum with
  | zero => simp [addRounds, Random.Source.advance]
  | succ rounds ih =>
    have hlater (t : Nat) := hits_advance bench.config.engine bench.config.dtype bench.source n 1 t
    have hsource : 2 * bench.config.engine.draws n + 2 * rounds * bench.config.engine.draws n =
        2 * (rounds + 1) * bench.config.engine.draws n := by ring
    have hcalls : bench.calls + 8 + rounds * 8 = bench.calls + (rounds + 1) * 8 := by ring
    rw [Nat.mul_one] at hlater
    -- the later rounds begin at the source that the two fills of this one leave
    rw [addRounds_succ, bind_of_ok (quarterCircle_eq bench hfloat hn), ih { bench with
      source := bench.source.advance (2 * bench.config.engine.draws n),
      calls := bench.calls + 8 } hfloat, List.range_succ_eq_map]
    simp only [hlater, List.map_cons, List.foldl_cons, List.map_map, Function.comp_def,
      Engine.advance_advance, Nat.add_comm 1, hsource, hcalls]

theorem addRounds_of_type (bench : Bench) (hfloat : bench.config.dtype.isFloat = false)
    (n rounds : Nat) (sum : Float) :
    addRounds n (rounds + 1) sum bench =
      (.error (.unsupportedType bench.config.dtype.name .random),
        { bench with calls := bench.calls + 1 }) := by
  rw [addRounds_succ, bind_of_error (quarterCircle_of_type bench hfloat n)]

theorem estimatePi_eq (bench : Bench) (hfloat : bench.config.dtype.isFloat = true) {n : Nat}
    (hn : n ≤ 2 ^ 53) (rounds : Nat) :
    estimatePi n rounds bench =
      (.ok (meanOfCounts Scalar.ofNat Scalar.add Arith.mul Arith.div n
          ((List.range rounds).map
            (hits bench.config.engine bench.config.dtype bench.source n)) : Float),
        { bench with
          source := bench.source.advance (2 * rounds * bench.config.engine.draws n),
          calls := bench.calls + rounds * 8 }) := by
  rw [estimatePi, bind_of_ok (addRounds_eq bench hfloat hn rounds Arith.zero), meanOfCounts,
    List.length_map, List.length_range, CountsExactly.ofNat_zero]
  rfl

/-! ## Counts and seeds -/

section Counts

variable (n : Nat) (counts : List Nat)

theorem foldl_parts (sum : ℚ) :
    counts.foldl (fun (sum : ℚ) (c : Nat) => sum + c * (4 : Nat) / n) sum =
      sum + 4 * counts.sum / n := by
  induction counts generalizing sum with
  | nil => simp
  | cons c counts ih =>
    rw [List.foldl_cons, ih, List.sum_cons]
    push_cast
    ring

theorem meanOfCounts_rat :
    meanOfCounts Nat.cast (· + ·) (· * ·) (· / ·) n counts =
      (4 * counts.sum / (n * counts.length) : ℚ) := by
  rw [meanOfCounts, foldl_parts, Nat.cast_zero, zero_add, div_div]

variable {n counts} in
theorem mean_le_four (hcounts : ∀ c ∈ counts, c ≤ n) :
    (4 * counts.sum / (n * counts.length) : ℚ) ≤ 4 := by
  have hsum : counts.sum ≤ n * counts.length := by
    rw [Nat.mul_comm]
    exact List.sum_le_card_nsmul counts n hcounts
  have hcast : (counts.sum : ℚ) ≤ n * counts.length := by exact_mod_cast hsum
  refine div_le_of_le_mul₀ (by positivity) (by norm_num) ?_
  exact mul_le_mul_of_nonneg_left hcast (by norm_num)

theorem hits_le (kind : EngineKind) (dtype : ElementType) (source : Random.Source) (n round : Nat) :
    hits kind dtype source n round ≤ n :=
  List.countP_le_length.trans List.length_range.le

end Counts

section Seeds

variable (kind : EngineKind) {n : Nat}

theorem place_lt_draws {j : Nat} (hj : j < n) : (kind.place j).1 < kind.draws n := by
  cases kind with
  | reference => exact Nat.one_pos
  | parallel =>
    -- were there no more seeds than that, they would not reach beyond the start of this chunk
    refine Nat.lt_of_not_le fun hle => ?_
    have hcover : n ≤ j / Engine.chunkLength * Engine.chunkLength :=
      Engine.chunkCount_le_iff.mp hle
    have hstart := Nat.div_mul_le_self j Engine.chunkLength
    omega

/-- The seeds of a fill begin where those of the fill before it end. -/
theorem fill_eq_of_seed {k k' j j' : Nat} (hj : j < n) (hj' : j' < n)
    (h : k * kind.draws n + (kind.place j).1 = k' * kind.draws n + (kind.place j').1) :
    k = k' := by
  have hquotient (k : Nat) {j : Nat} (hj : j < n) :
      (k * kind.draws n + (kind.place j).1) / kind.draws n = k := by
    have hlt := place_lt_draws kind hj
    rw [Nat.mul_comm, Nat.mul_add_div (Nat.zero_lt_of_lt hlt), Nat.div_eq_of_lt hlt, Nat.add_zero]
  rw [← hquotient k hj, h, hquotient k' hj']

end Seeds

/-! ## The exported functions -/

def exportedUfunc (name : String) : Action Ufunc :=
  fun bench => (SymbolTable.exported.ufunc name, bench)

/-- A round that calls each function under its exported name. -/
def quarterCircleByName {α : Type} [Scalar α] (n : Nat) : Action α := do
  let x : NDArray α ← Action.random [n]
  let y : NDArray α ← Action.random [n]
  let power ← exportedUfunc "power"
  let add ← exportedUfunc "add"
  let sqrt ← exportedUfunc "sqrt"
  let lessEqual ← exportedUfunc "less_equal"
  let two : Operand α := .scalar (Scalar.ofNat 2)
  let x2 ← Action.call fun engine => power.call engine [.array x, two]
  let y2 ← Action.call fun engine => power.call engine [.array y, two]
  let squared ← Action.call fun engine => add.call engine [.array x2, .array y2]
  let distance ← Action.call fun engine => sqrt.call engine [.array squared]
  let inside ← Action.call fun engine =>
    lessEqual.call engine [.array distance, .scalar (Scalar.ofNat 1)]
  let count ← Action.call fun engine => add.reduce engine inside
  return Arith.div (Arith.mul count (Scalar.ofNat 4)) (Scalar.ofNat n)

theorem exportedUfunc_eq_pure {name : String} {op : ScalarOp}
    (h : ∃ u ∈ Ufunc.table, u.name = name ∧ u.op = op) :
    ∃ doc, exportedUfunc name = pure ⟨name, op, doc⟩ := by
  obtain ⟨⟨_, _, doc⟩, hmem, rfl, rfl⟩ := h
  have hfound := (SymbolTable.registers_exported.ufunc_ok _ _).mpr ⟨hmem, rfl⟩
  exact ⟨doc, funext fun bench => congrArg (·, bench) hfound⟩

theorem quarterCircle_eq_byName {α : Type} [Scalar α] (n : Nat) :
    quarterCircle (α := α) n = quarterCircleByName n := by
  obtain ⟨_, hpower⟩ := exportedUfunc_eq_pure (by decide : ∃ u ∈ Ufunc.table,
    u.name = "power" ∧ u.op = .power)
  obtain ⟨_, hadd⟩ := exportedUfunc_eq_pure (by decide : ∃ u ∈ Ufunc.table,
    u.name = "add" ∧ u.op = .add)
  obtain ⟨_, hsqrt⟩ := exportedUfunc_eq_pure (by decide : ∃ u ∈ Ufunc.table,
    u.name = "sqrt" ∧ u.op = .sqrt)
  obtain ⟨_, hlessEqual⟩ := exportedUfunc_eq_pure (by decide : ∃ u ∈ Ufunc.table,
    u.name = "less_equal" ∧ u.op = .lessEqual)
  simp only [quarterCircleByName, hpower, hadd, hsqrt, hlessEqual, pure_bind]
  rfl

/-! ## The estimate -/

/-- The estimate fails only for types without samples. Otherwise it is told by exact counts of the
points that `2 * rounds` fills make, each from seeds of its own. -/
theorem estimatePi_counts (bench : Bench) {n rounds : Nat} (hpos : 0 < n) (hle : n ≤ 2 ^ 53)
    (hrounds : 0 < rounds) :
    let kind := bench.config.engine
    let dtype := bench.config.dtype
    let source := bench.source
    let counts := (List.range rounds).map (hits kind dtype source n)
    quarterCircle (α := Float) n = quarterCircleByName n ∧
      (dtype.isFloat = false → ∃ after : Bench,
        estimatePi (α := Float) n rounds bench =
            (.error (.unsupportedType dtype.name .random), after) ∧ after.source = source) ∧
      (dtype.isFloat = true →
        (∃ after : Bench,
          estimatePi n rounds bench = (.ok (meanOfCounts Scalar.ofNat Scalar.add Arith.mul Arith.div
            n counts : Float), after) ∧
          (kind = .reference → after.source = source.advance (2 * rounds)) ∧
          (kind = .parallel →
            after.source = source.advance (2 * rounds * ⌈(n : ℚ) / 16384⌉₊))) ∧
        meanOfCounts Nat.cast (· + ·) (· * ·) (· / ·) n counts =
          (4 * counts.sum / (n * rounds) : ℚ) ∧
        (∀ c ∈ counts, c ≤ n) ∧
        (4 * counts.sum / (n * rounds) : ℚ) ∈ Set.Icc 0 4 ∧
        (∀ (k : Nat) (engine : Engine), engine.kind = kind →
          engine.random [n] dtype (source.advance (k * kind.draws n)) =
            .ok (row dtype n (fillAt kind dtype source n k),
              source.advance ((k + 1) * kind.draws n)))) ∧
      (∀ k j, fillAt kind dtype source n k j =
        Random.sample dtype (source.peek (k * kind.draws n + (kind.place j).1)) (kind.place j).2) ∧
      ∀ k k' j j', j < n → j' < n →
        k * kind.draws n + (kind.place j).1 = k' * kind.draws n + (kind.place j').1 → k = k' := by
  intro kind dtype source counts
  have hword : n < wordLimit := by
    unfold wordLimit
    omega
  have hlength : counts.length = rounds := by simp [counts]
  have hcounts : ∀ c ∈ counts, c ≤ n := by
    intro c hc
    obtain ⟨t, -, rfl⟩ := List.mem_map.mp hc
    exact hits_le kind dtype source n t
  have hmean := meanOfCounts_rat n counts
  have hfour := mean_le_four hcounts
  rw [hlength] at hmean hfour
  refine ⟨quarterCircle_eq_byName n, fun hfloat => ?_, fun hfloat => ⟨?_, hmean, hcounts,
    ⟨by positivity, hfour⟩, fun k engine hkind => ?_⟩, fun k j => ?_,
    fun k k' j j' hj hj' => fill_eq_of_seed kind hj hj'⟩
  · obtain ⟨earlier, rfl⟩ : ∃ earlier, rounds = earlier + 1 := ⟨rounds - 1, by omega⟩
    exact ⟨_, bind_of_error (addRounds_of_type bench hfloat n earlier Arith.zero), rfl⟩
  · refine ⟨_, estimatePi_eq bench hfloat hle rounds, fun hkind => ?_, fun hkind => ?_⟩
    · change source.advance (2 * rounds * kind.draws n) = _
      rw [hkind, EngineKind.draws, Nat.mul_one]
    · change source.advance (2 * rounds * kind.draws n) = _
      rw [hkind, EngineKind.draws, Engine.chunkCount_eq_ceil]
  · rw [Engine.random_eq_ofFn engine _ hfloat (elementCount_single hword), hkind,
      Engine.advance_advance, Nat.add_mul, Nat.one_mul]
    rfl
  · simp only [fillAt, EngineKind.sampleAt, Random.Source.peek, Random.Source.advance,
      Nat.add_assoc]

/-- Three rounds on a pool that needs two seeds for each fill. -/
def twoSeeds : Config where
  script := "mc"
  sizes := [20000, 3]
  dtype := .float64
  engine := .parallel
  seed := some 5

theorem estimatePi_counts_twoSeeds :
    twoSeeds.dtype.isFloat = true ∧ 0 < 20000 ∧ 20000 ≤ 2 ^ 53 ∧ 0 < 3 ∧
      ∀ pool : Nat → Schedule, ∃ (value : Float) (after : Bench),
        estimatePi 20000 3 (.ofConfig twoSeeds 0 pool) = (.ok value, after) ∧
          after.source = (Random.Source.ofSeed 5).advance 12 := by
  have hseeds : 2 * 3 * ⌈((20000 : Nat) : ℚ) / 16384⌉₊ = 12 := by
    rw [← Engine.chunkCount_eq_ceil]
    rfl
  refine ⟨rfl, by decide, by decide, by decide, fun pool => ?_⟩
  obtain ⟨-, -, hruns, -⟩ := estimatePi_counts (.ofConfig twoSeeds 0 pool)
    (by decide : 0 < 20000) (by decide) (by decide : 0 < 3)
  obtain ⟨⟨after, hestimate, -, hsource⟩, -⟩ := hruns rfl
  refine ⟨_, after, hestimate, ?_⟩
  rw [hsource rfl, hseeds]
  rfl

end Workload

end DenseBench
