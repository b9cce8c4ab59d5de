import SignalCore.Buffer
import SignalCore.Fixed.Accumulator
import SignalCore.Profile

/-!
# Dot products

`dot` adds the products of two runs of samples one at a time, from the first on.  `dotPaired?`
does the same work two products at a time on packed pairs and counts a last odd sample on its
own; it reads by index, and a read outside either run makes it fail.
-/

namespace SignalCore

variable {A : Type} [Accumulator A]

/-- `sum` plus the products of the samples of `x` and `y` at equal positions, as far as both
reach. -/
def dot (sum : A) (x y : Array Int16) : A :=
  (x.toList.zip y.toList).foldl (fun sum pair => Accumulator.mac sum pair.1 pair.2) sum

/-- The products at `i`, `i + 1`, …, for a given number of samples, two at a time. -/
def dotPairedFrom? (x y : Array Int16) : Nat → Nat → A → Option A
  | 0, _, sum => some sum
  | 1, i, sum => do
    let a ← x[i]?
    let b ← y[i]?
    return Accumulator.mac sum a b
  | count + 2, i, sum => do
    let a ← Packed.read? x i
    let b ← Packed.read? y i
    dotPairedFrom? x y count (i + 2) (Accumulator.dualMac sum a b)

/-- `sum` plus the products of the samples of `x` and `y` at equal positions, as far as both
reach, two products at a time. -/
def dotPaired? (sum : A) (x y : Array Int16) : Option A :=
  dotPairedFrom? x y (min x.size y.size) 0 sum

/-- The dot product in either width. -/
def dot? (lanes : Lanes) (sum : A) (x y : Array Int16) : Option A :=
  match lanes with
  | .one => some (dot sum x y)
  | .two => dotPaired? sum x y

end SignalCore
