import DenseBench.Decimal.Layout
import DenseBench.Scalar

/-!
# Dense arrays

Row-major arrays of one element type. `ofData` is the checked way to build one; `zeros` and
`scalar` build theirs directly. A dimension is a 64-bit word, and so is a number of elements.
-/

namespace DenseBench

structure NDArray (α : Type) where
  shape : List Nat
  dtype : ElementType
  data : Array α
  deriving Repr

/-- The first number that is no 64-bit word. -/
def wordLimit : Nat := 2 ^ 64

namespace NDArray

/-- A product, if it is a 64-bit word. -/
def multiply? (a b : Nat) : Option Nat :=
  if a * b < wordLimit then some (a * b) else none

/-- Multiplies left to right and fails at the first product that is no 64-bit word. -/
def elementCount (shape : List Nat) : Except Error Nat :=
  match shape.foldlM multiply? 1 with
  | some n => .ok n
  | none => .error (.invalidSize (.tooManyElements shape))

/-- The product of the dimensions in 64-bit arithmetic that wraps around. -/
def wrappedCount (shape : List Nat) : Nat :=
  shape.foldl (fun count d => count * d % wordLimit) 1

variable {α : Type}

def rank (a : NDArray α) : Nat :=
  a.shape.length

def size (a : NDArray α) : Nat :=
  a.data.size

def isEmpty (a : NDArray α) : Bool :=
  a.data.isEmpty

/-- Where row-major order keeps the element of a row and a column. -/
def offset (columns row column : Nat) : Nat :=
  row * columns + column

/-- The element of a row and a column of a matrix; nothing outside it, or if there are not two
dimensions. Its place in the buffer is a 64-bit word and wraps around. -/
def get2? (a : NDArray α) (row column : Nat) : Option α :=
  match a.shape with
  | [rows, columns] =>
    if row < rows ∧ column < columns then a.data[offset columns row column % wordLimit]? else none
  | _ => none

def squareDim (a : NDArray α) : Except Error Nat :=
  match a.shape with
  | [rows, columns] => if rows = columns then .ok rows else .error (.notSquare a.shape)
  | _ => .error (.notSquare a.shape)

variable [Scalar α]

/-- An array of the given elements, each coerced to the type, if the shape has room for just so
many. -/
@[specialize]
def ofData (shape : List Nat) (dtype : ElementType) (data : Array α) : Except Error (NDArray α) :=
  match elementCount shape with
  | .error e => .error e
  | .ok expected =>
    if expected = data.size then
      match dtype with
      | .float64 => .ok ⟨shape, dtype, data⟩
      | dtype => .ok ⟨shape, dtype, data.map (Scalar.coerce dtype)⟩
    else
      .error (.shapeMismatch shape [data.size])

/-- Zeros of the given shape. The number of elements is not checked, it wraps around. -/
def zeros (shape : List Nat) (dtype : ElementType) : NDArray α :=
  ⟨shape, dtype, Array.replicate (wrappedCount shape) Arith.zero⟩

/-- An array without dimensions that holds one element. -/
def scalar (value : α) (dtype : ElementType) : NDArray α :=
  ⟨[], dtype, #[Scalar.coerce dtype value]⟩

/-- Equal shape, equal type and pairwise equal elements by the elements' own comparison. -/
def equal (a b : NDArray α) : Bool :=
  a.shape == b.shape && a.dtype == b.dtype && a.data.size == b.data.size &&
    (a.data.zip b.data).all fun p => Scalar.same p.1 p.2

/-! ## Arrays as messages show them -/

def previewLength : Nat := 6

/-- The shape, the type and the first few elements. -/
def preview (a : NDArray Float) : String :=
  "Array(shape=" ++ Text.bracketed a.shape ++ ", dtype=" ++ a.dtype.name ++ ", data=[" ++
    String.intercalate ", " ((a.data.take previewLength).toList.map Decimal.Layout.plain.render) ++
    (if previewLength < a.data.size then ", ..." else "") ++ "])"

end NDArray

end DenseBench
