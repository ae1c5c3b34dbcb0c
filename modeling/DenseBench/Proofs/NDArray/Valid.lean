import DenseBench.Proofs.Elimination.Outcome
import DenseBench.Proofs.Engine.Elementwise
import DenseBench.Proofs.Engine.Fill
import DenseBench.Ufunc

/-!
# Valid arrays

An array is valid if its dimensions count its elements, in every partial product a 64-bit word, and
each element is one that its type leaves as it is. Every operation that makes an array makes a
valid one; what it works on only has to be valid where the result keeps its size.
-/

namespace DenseBench

/-- Elements whose coercion changes a value once only, and never a zero. -/
class CoercesOnce (α : Type) [Scalar α] : Prop where
  coerce_coerce (t : ElementType) (x : α) :
    Scalar.coerce t (Scalar.coerce t x) = Scalar.coerce t x
  coerce_zero (t : ElementType) : Scalar.coerce t (Arith.zero : α) = Arith.zero

namespace NDArray

open CoercesOnce

variable {α : Type} [Scalar α]

structure Valid (a : NDArray α) : Prop where
  count : elementCount a.shape = .ok a.data.size
  coerced : ∀ x ∈ a.data, Scalar.coerce a.dtype x = x

namespace Valid

variable {a b : NDArray α}

theorem size_eq (h : a.Valid) : a.data.size = a.shape.prod :=
  eq_prod_of_elementCount h.count

theorem size_lt (h : a.Valid) : a.data.size < wordLimit :=
  lt_wordLimit_of_elementCount h.count

/-- A valid array is what its shape, its type and its elements build. -/
theorem ofData_self (h : a.Valid) : ofData a.shape a.dtype a.data = .ok a := by
  have hdata : a.data.map (Scalar.coerce a.dtype) = a.data := by
    rw [Array.map_congr_left h.coerced, Array.map_id']
  rw [ofData_eq_ok_iff]
  exact ⟨h.count, by rw [hdata]⟩

variable [CoercesOnce α]

theorem of_coerced {shape : List Nat} {dtype : ElementType} {data : Array α}
    (hcount : elementCount shape = .ok data.size) :
    Valid ⟨shape, dtype, data.map (Scalar.coerce dtype)⟩ where
  count := by rwa [Array.size_map]
  coerced := by
    intro x hx
    obtain ⟨y, -, rfl⟩ := Array.mem_map.mp hx
    exact coerce_coerce dtype y

theorem of_ofData {shape : List Nat} {dtype : ElementType} {data : Array α}
    (h : ofData shape dtype data = .ok a) : a.Valid := by
  obtain ⟨hcount, rfl⟩ := ofData_eq_ok_iff.mp h
  exact of_coerced hcount

theorem scalar (value : α) (dtype : ElementType) : (NDArray.scalar value dtype).Valid where
  count := rfl
  coerced := by
    intro x hx
    obtain rfl : x = Scalar.coerce dtype value := by simpa [NDArray.scalar] using hx
    exact coerce_coerce dtype value

/-- Nothing checks the shape of zeros, so its count is asked for here. -/
theorem zeros {shape : List Nat} {count : Nat} (hcount : elementCount shape = .ok count)
    (dtype : ElementType) : (NDArray.zeros shape dtype : NDArray α).Valid where
  count := by
    rw [NDArray.zeros, Array.size_replicate, wrappedCount_of_elementCount hcount]
    exact hcount
  coerced := by
    intro x hx
    obtain rfl := (Array.mem_replicate.mp hx).2
    exact coerce_zero dtype

theorem of_random {engine : Engine} {shape : List Nat} {dtype : ElementType}
    {source after : Random.Source} (h : engine.random shape dtype source = .ok (a, after)) :
    a.Valid := by
  obtain ⟨-, len, data, -, -, hdata⟩ := Engine.random_eq_ok_iff.mp h
  exact of_ofData hdata

theorem of_unary {engine : Engine} {op : ScalarOp} (h : engine.unary op a = .ok b) : b.Valid := by
  obtain ⟨-, hcount, rfl⟩ := Engine.unary_eq_ok_iff.mp h
  exact of_coerced (by rwa [Array.size_map])

theorem of_binary {engine : Engine} {op : ScalarOp} {lhs rhs : Operand α}
    (h : engine.binary op lhs rhs = .ok b) : b.Valid := by
  obtain ⟨-, shape, count, -, hcount, rfl⟩ := Engine.binary_eq_ok_iff.mp h
  exact of_coerced (by rwa [Engine.combined, Array.size_ofFn])

theorem of_call {u : Ufunc} {engine : Engine} {operands : List (Operand α)}
    (h : u.call engine operands = .ok b) : b.Valid := by
  unfold Ufunc.call at h
  split at h
  · exact of_unary h
  · cases h
    exact scalar _ _
  · exact of_binary h
  · cases h

theorem of_lu {engine : Engine} {l u : NDArray α} (h : engine.lu a = .ok (l, u)) :
    l.Valid ∧ u.Valid := by
  obtain ⟨n, packed, -, hlower, hupper⟩ := Engine.ofData_of_lu_eq_ok h
  exact ⟨of_ofData hlower, of_ofData hupper⟩

end Valid

end NDArray

end DenseBench
