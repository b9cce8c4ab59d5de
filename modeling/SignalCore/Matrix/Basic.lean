import SignalCore.Buffer
import SignalCore.Outcome

/-!
# Matrices of samples and the frame of a product

A matrix is a pair of dimensions and its elements row by row.  An element is one sample, or two
for a complex number, so the functions here take the number of samples in an element, its
`width`.

A product first checks that the three shapes conform, then that every buffer is long enough, and
only then writes: the transpose of the right factor into the scratch buffer, so that each element
of the result is a dot product of two runs, and the result over the start of the destination.
-/

namespace SignalCore

/-- The dimensions of a matrix. -/
structure Shape where
  rows : UInt16
  cols : UInt16
deriving DecidableEq, Repr

namespace Shape

/-- The number of elements. -/
def size (shape : Shape) : Nat :=
  shape.rows.toNat * shape.cols.toNat

/-- Rows and columns with a cross between them. -/
def text (shape : Shape) : String :=
  toString shape.rows ++ "x" ++ toString shape.cols

end Shape

/-- Samples arranged row by row.  The data may be longer than the shape needs, or too short for
it. -/
structure Matrix extends Shape where
  data : Array Int16
deriving DecidableEq, Repr

namespace Matrix

/-- A matrix without elements. -/
def isEmpty (matrix : Matrix) : Bool :=
  matrix.size = 0

/-- The shapes of three matrices of which the third cannot hold the product of the first two. -/
structure SizeMismatch where
  left : Shape
  right : Shape
  destination : Shape
deriving DecidableEq, Repr

/-- The report of a size mismatch. -/
def SizeMismatch.message (mismatch : SizeMismatch) : String :=
  "matrix size mismatch: " ++ mismatch.left.text ++ " * " ++ mismatch.right.text ++ " -> " ++
    mismatch.destination.text

/-- The third shape is that of the product of the first two, which can be multiplied. -/
def Conforms (left right destination : Shape) : Prop :=
  left.cols = right.rows ∧ left.rows = destination.rows ∧ right.cols = destination.cols

instance (left right destination : Shape) : Decidable (Conforms left right destination) :=
  inferInstanceAs (Decidable (_ ∧ _ ∧ _))

/-- The buffers that a product works in. -/
structure Buffers where
  destination : Matrix
  /-- Takes the transpose of the right factor. -/
  scratch : Array Int16
deriving DecidableEq, Repr

/-- Both factors, the destination and the scratch buffer hold all the samples that a product
reads or writes there. -/
def Fits (width : Nat) (left right : Matrix) (buffers : Buffers) : Prop :=
  width * left.size ≤ left.data.size ∧ width * right.size ≤ right.data.size ∧
    width * (left.rows.toNat * right.cols.toNat) ≤ buffers.destination.data.size ∧
    width * right.size ≤ buffers.scratch.size

instance (width : Nat) (left right : Matrix) (buffers : Buffers) :
    Decidable (Fits width left right buffers) :=
  inferInstanceAs (Decidable (_ ∧ _ ∧ _ ∧ _))

/-- Run a product between its checks and its results.  Each factor and each buffer is cut to the
samples that the product needs.  `layOut?` writes the transpose of the right factor over a run of
the scratch buffer, and `product?` writes the product of the left factor, by this transpose, over a
run of the destination.  Nothing is written unless the shapes conform and the buffers are long
enough. -/
def multiplyBy (width : Nat) (layOut? : Array Int16 → Array Int16 → Option (Array Int16))
    (product? : Array Int16 → Array Int16 → Array Int16 → Option (Array Int16))
    (left right : Matrix) (buffers : Buffers) : Outcome SizeMismatch Buffers :=
  let destination := buffers.destination
  if ¬ Conforms left.toShape right.toShape destination.toShape then
    .refused ⟨left.toShape, right.toShape, destination.toShape⟩ buffers
  else if ¬ Fits width left right buffers then .outOfBounds buffers
  else
    let leftRun := left.data.extract 0 (width * left.size)
    let rightRun := right.data.extract 0 (width * right.size)
    let resultRun := destination.data.extract 0 (width * (left.rows.toNat * right.cols.toNat))
    let transposeRun := buffers.scratch.extract 0 (width * right.size)
    match layOut? rightRun transposeRun with
    | none => .outOfBounds buffers
    | some transposed =>
      let scratch := Buffer.overlay transposed buffers.scratch
      match product? leftRun transposed resultRun with
      | none => .outOfBounds { buffers with scratch }
      | some samples =>
        let data := Buffer.overlay samples destination.data
        .done ⟨{ destination with data }, scratch⟩

end Matrix

end SignalCore
