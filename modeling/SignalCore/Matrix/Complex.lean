import SignalCore.Fixed.DotProduct
import SignalCore.Matrix.Basic

/-!
# Products of complex matrices

A complex element is two samples, the real part first.  The parts of an element of the product
are two sums of real products, each kept in 64 bits and finished at the rails.  The loops write in
place, both samples of an element in one step.
-/

namespace SignalCore.Matrix

/-- Write the element that starts at `i` in `source` to `place` in `target`. -/
def copyPair? (source : Array Int16) (i : Nat) (target : Array Int16) (place : Nat) :
    Option (Array Int16) := do
  let target ← Buffer.write? target place (← source[i]?)
  Buffer.write? target (place + 1) (← source[i + 1]?)

/-- Write the transpose of a matrix of `rows` rows of complex elements over `target`, each element
kept in one piece. -/
def transposePairs? (rows cols : Nat) (source target : Array Int16) : Option (Array Int16) :=
  (List.range rows).foldlM (fun target r =>
    (List.range cols).foldlM (fun target c =>
      copyPair? source (2 * (r * cols + c)) target (2 * (c * rows + r))) target) target

variable {A B : Type} [Accumulator A]

/-- A complex sum by its two parts. -/
structure ComplexSum (A : Type) where
  re : A
  im : A
deriving DecidableEq, Repr

namespace ComplexSum

/-- The empty sum. -/
def zero : ComplexSum A := ⟨Accumulator.zero, Accumulator.zero⟩

end ComplexSum

/-! ## Complex dot products -/

/-- `sum` plus the complex products of two runs of elements at equal positions, each part of a
product formed whole before it is added. -/
def complexDot (sum : ComplexSum A) : List Int16 → List Int16 → ComplexSum A
  | xr :: xi :: x, yr :: yi :: y =>
    complexDot
      { re := Accumulator.add sum.re (xr.toInt * yr.toInt - xi.toInt * yi.toInt)
        im := Accumulator.add sum.im (xr.toInt * yi.toInt + xi.toInt * yr.toInt) } x y
  | _, _ => sum

/-- The complex products of a given number of elements from the element `k` on, each part added
in two steps from packed elements. -/
def complexDotPairedFrom? (x y : Array Int16) :
    Nat → Nat → ComplexSum A → Option (ComplexSum A)
  | 0, _, sum => some sum
  | count + 1, k, sum => do
    let a ← Packed.read? x (2 * k)
    let b ← Packed.read? y (2 * k)
    complexDotPairedFrom? x y count (k + 1)
      ⟨Accumulator.differenceMac sum.re a b, Accumulator.crossMac sum.im a b⟩

/-- The complex dot product of two runs of `inner` elements in either width. -/
def complexDot? (lanes : Lanes) (inner : Nat) (x y : Array Int16) : Option (ComplexSum A) :=
  match lanes with
  | .one => some (complexDot .zero x.toList y.toList)
  | .two => complexDotPairedFrom? x y inner 0 .zero

/-! ## The product -/

/-- The sum for the element at `row` and `col`.  Rows of both runs have `inner` elements. -/
def complexElementSum? (lanes : Lanes) (inner : Nat) (left transposed : Array Int16)
    (row col : Nat) : Option (ComplexSum A) := do
  let x ← Buffer.slice? left (2 * (row * inner)) (2 * inner)
  let y ← Buffer.slice? transposed (2 * (col * inner)) (2 * inner)
  complexDot? lanes inner x y

/-- Write element `i` of a product of `cols` columns: what `finish` makes of the two parts of its
sum. -/
def complexElement? (lanes : Lanes) (finish : A → B) (inner cols : Nat)
    (left transposed : Array Int16) (target : Array B) (i : Nat) : Option (Array B) := do
  let sum ← complexElementSum? lanes inner left transposed (i / cols) (i % cols)
  let target ← Buffer.write? target (2 * i) (finish sum.re)
  Buffer.write? target (2 * i + 1) (finish sum.im)

/-- Write a product of `cols` columns over `target`, element by element. -/
def complexProduct? (lanes : Lanes) (finish : A → B) (inner cols : Nat)
    (left transposed : Array Int16) (target : Array B) : Option (Array B) :=
  (List.range (target.size / 2)).foldlM
    (complexElement? lanes finish inner cols left transposed) target

/-- Write the product of two complex matrices over the start of the destination, each part of
each element finished by `Q15.finishSaturating`. -/
def multiplyComplex (lanes : Lanes) (left right : Matrix) (buffers : Buffers) :
    Outcome SizeMismatch Buffers :=
  multiplyBy 2 (transposePairs? right.rows.toNat right.cols.toNat)
    (complexProduct? lanes Q15.finishSaturating left.cols.toNat right.cols.toNat)
    left right buffers

end SignalCore.Matrix
