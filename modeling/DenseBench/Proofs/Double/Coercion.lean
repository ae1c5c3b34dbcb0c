import DenseBench.Proofs.Double.Saturation
import DenseBench.Proofs.Double.Single
import DenseBench.Proofs.NDArray.Valid

/-!
# Coercion of doubles

No type changes a double that it has coerced before, and every type holds zero.
-/

namespace DenseBench.Double

theorem roundTo_bool (x : Float) : roundTo .bool x = 0.0 ∨ roundTo .bool x = 1.0 :=
  ite_eq_or_eq ((x == 0.0) = true) 0.0 1.0

theorem roundTo_roundTo (t : ElementType) (x : Float) :
    roundTo t (roundTo t x) = roundTo t x := by
  cases t with
  | bool =>
    rcases roundTo_bool x with h | h
    · rw [h]
      decide +kernel
    · rw [h]
      decide +kernel
  | float32 => exact single_single x
  | float64 => rfl
  | int8 | int16 | int32 | int64 | uint8 | uint16 | uint32 | uint64 =>
    exact saturate_saturate _ x

theorem coerce_eq_roundTo (t : ElementType) (x : Float) : Scalar.coerce t x = roundTo t x := by
  cases t <;> rfl

instance : CoercesOnce Float where
  coerce_coerce t x := by
    rw [coerce_eq_roundTo, coerce_eq_roundTo, roundTo_roundTo]
  coerce_zero t := by
    cases t <;> decide +kernel

end DenseBench.Double
