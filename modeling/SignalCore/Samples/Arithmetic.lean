import SignalCore.Fixed.Packed
import SignalCore.Profile
import SignalCore.Samples.Basic

/-!
# Arithmetic on runs of samples

A constant offset, a shift, and the product of two runs.  Fixed-point results are held at the
rails.  The offset is added one sample at a time or on packed pairs.
-/

namespace SignalCore.Samples

/-! ## Offset -/

/-- `amount` added to each sample, two samples at a time; a last odd sample is taken alone. -/
def offsetPairs (amount : Int16) : List Int16 → List Int16
  | a :: b :: rest =>
    let sums := (Packed.ofLanes a b).saturatingAdd (Packed.ofLanes amount amount)
    sums.low :: sums.high :: offsetPairs amount rest
  | [a] => [Q15.saturatingAdd a amount]
  | [] => []

/-- `amount` added to each sample, held at the rails. -/
def offsetSamples (lanes : Lanes) (amount : Int16) (source : Array Int16) : Array Int16 :=
  match lanes with
  | .one => source.map (Q15.saturatingAdd · amount)
  | .two => (offsetPairs amount source.toList).toArray

/-- Write `source` with `amount` added to each sample over the start of `destination`. -/
def offset (lanes : Lanes) (source : Array Int16) (amount : Int16) (destination : Array Int16) :
    Outcome Empty (Array Int16) :=
  store (offsetSamples lanes amount source) destination

/-! ## Shift -/

/-- A sample shifted left by `bits` and held at the rails if `bits` is not negative, and shifted
right arithmetically by `-bits` otherwise.  Eight places to the left or seven to the right are as
good as any larger number. -/
def shiftSample (bits : Int8) (sample : Int8) : Int8 :=
  if 0 ≤ bits.toInt then Q7.saturate (sample.toInt <<< min bits.toInt.toNat 8)
  else Int8.ofInt (sample.toInt >>> min bits.toInt.natAbs 7)

/-- Write `source` with each sample shifted by `bits` over the start of `destination`. -/
def shift (source : Array Int8) (bits : Int8) (destination : Array Int8) :
    Outcome Empty (Array Int8) :=
  mapInto (shiftSample bits) source destination

/-! ## Products of floating samples -/

/-- Write the products of `a` and `b` at equal positions over the start of `destination`, one for
each sample of `a`. -/
def multiply (a b destination : Array Float32) : Outcome Empty (Array Float32) :=
  if a.size ≤ b.size then store (a.zipWith (· * ·) b) destination else .outOfBounds destination

end SignalCore.Samples
