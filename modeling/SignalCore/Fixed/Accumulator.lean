import SignalCore.Fixed.Packed

/-!
# Accumulators

A kernel adds up exact products of samples.  What an addition does is left to the type that the
sum is kept in: 32-bit and 64-bit accumulators add modulo `2 ^ 32` and `2 ^ 64`, and integers add
exactly.  Every inner loop of the kernels is written once, over any accumulator, so that a
fixed-width sum and the exact sum that it stands for come from the same loop.
-/

namespace SignalCore

/-- A type that sums of products can be kept in. -/
class Accumulator (A : Type) where
  /-- The empty sum. -/
  zero : A
  /-- The sum with one more term. -/
  add : A → Int → A

instance : Accumulator Int32 where
  zero := 0
  add sum term := sum + Int32.ofInt term

/-- A build without overflow checks adds modulo `2 ^ 64`.  One with checks stops where an addition
overflows, which takes at least `2 ^ 33` products in one sum, since no product is above `2 ^ 30`. -/
instance : Accumulator Int64 where
  zero := 0
  add sum term := sum + Int64.ofInt term

instance : Accumulator Int where
  zero := 0
  add sum term := sum + term

namespace Accumulator

variable {A : Type} [Accumulator A]

/-- Add the product of two samples. -/
def mac (sum : A) (a b : Int16) : A :=
  add sum (a.toInt * b.toInt)

/-- Add the product of the low lanes, then the product of the high lanes. -/
def dualMac (sum : A) (x y : Packed) : A :=
  mac (mac sum x.low y.low) x.high y.high

/-- Add the product of the low lanes, then take off the product of the high lanes.  On packed
complex numbers this adds the real part of `x * y`. -/
def differenceMac (sum : A) (x y : Packed) : A :=
  add (mac sum x.low y.low) (-(x.high.toInt * y.high.toInt))

/-- Add the product of `x`'s low lane and `y`'s high lane, then the product of the other two
lanes.  On packed complex numbers this adds the imaginary part of `x * y`. -/
def crossMac (sum : A) (x y : Packed) : A :=
  mac (mac sum x.low y.high) x.high y.low

end Accumulator

end SignalCore
