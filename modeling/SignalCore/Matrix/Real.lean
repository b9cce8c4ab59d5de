import SignalCore.Fixed.DotProduct
import SignalCore.Matrix.Basic

/-!
# Products of real matrices

An element of the product is the dot product of a row of the left factor with a row of the
transpose of the right one, kept in 32 bits and finished by dropping high bits.  Both loops write
in place: the transpose one sample at a time, row by row of the right factor, and the product one
sample at a time, row by row of the result.
-/

namespace SignalCore.Matrix

/-- Write row `r` of a matrix of `rows` rows into its transpose: sample `c` goes to
`c * rows + r`. -/
def transposeRow? (rows r : Nat) (row target : Array Int16) : Option (Array Int16) :=
  row.toList.zipIdx.foldlM (fun target (sample, c) => Buffer.write? target (c * rows + r) sample)
    target

/-- Write the transpose of a matrix of `rows` rows over `target`, row by row of the matrix. -/
def transpose? (rows cols : Nat) (source target : Array Int16) : Option (Array Int16) := do
  let sourceRows ← Buffer.chunks? (max cols 1) source
  (sourceRows.take rows).zipIdx.foldlM (fun target (row, r) => transposeRow? rows r row target)
    target

variable {A B : Type} [Accumulator A]

/-- Write a row of a product over the `cols` places from `start` on: what `finish` makes of the dot
products of a row of the left factor with the rows of the transpose, which have `height` samples
each. -/
def realRow? (lanes : Lanes) (finish : A → B) (height cols : Nat) (transposed row : Array Int16)
    (target : Array B) (start : Nat) : Option (Array B) := do
  let columns ← Buffer.chunks? height transposed
  (columns.zip (List.range' start cols)).foldlM (fun target (column, place) => do
    let sum ← dot? lanes Accumulator.zero row column
    Buffer.write? target place (finish sum)) target

/-- Write a product of `cols` columns over `target`, row by row.  A left factor whose rows have no
samples leaves `blank` everywhere. -/
def realProduct? (lanes : Lanes) (finish : A → B) (blank : B) (inner height cols : Nat)
    (left transposed : Array Int16) (target : Array B) : Option (Array B) :=
  if target.isEmpty then some target
  else if inner = 0 then some (Buffer.fill blank target)
  else do
    let rows ← Buffer.chunks? inner left
    let starts ← Buffer.chunkStarts? cols target.size
    (rows.zip starts).foldlM (fun target (row, start) =>
      realRow? lanes finish height cols transposed row target start) target

/-- Write the product of two real matrices over the start of the destination, each element
finished by `Q15.finishWrapping`. -/
def multiplyReal (lanes : Lanes) (left right : Matrix) (buffers : Buffers) :
    Outcome SizeMismatch Buffers :=
  multiplyBy 1 (transpose? right.rows.toNat right.cols.toNat)
    (realProduct? lanes Q15.finishWrapping 0 left.cols.toNat right.rows.toNat right.cols.toNat)
    left right buffers

end SignalCore.Matrix
