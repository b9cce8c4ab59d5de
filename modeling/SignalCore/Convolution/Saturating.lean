import SignalCore.Convolution.Basic
import SignalCore.Outcome

/-!
# Saturating convolution

Sums are kept in 64 bits and finished at the rails.  The longer operand is laid out in one scratch
buffer between two runs of zeros and the shorter one is laid out backwards in another, so that
every output is the dot product of a window of the first with the second, and no output needs a
case of its own.

The buffers are taken in a fixed order: a layout is written as soon as its buffer is known to
hold it, so a call that fails on a later buffer leaves the earlier layouts behind.
-/

namespace SignalCore.Convolution.Saturating

variable {A : Type} [Accumulator A]

/-! ## Layouts -/

/-- `x` between two runs of `zeros` zeros. -/
def surround (x : Array Int16) (zeros : Nat) : Array Int16 :=
  Array.replicate zeros 0 ++ x ++ Array.replicate zeros 0

/-! ## Sums over windows -/

/-- The sum for the output whose window starts at `n`. -/
def windowSum? (lanes : Lanes) (padded reversed : Array Int16) (n : Nat) : Option A := do
  dot? lanes Accumulator.zero (← Buffer.slice? padded n reversed.size) reversed

/-- Carry the sums for the outputs at `n`, …, `n + 3` through the taps that are left, two taps at
a time. -/
def blockFrom? (padded reversed : Array Int16) (n : Nat) :
    Nat → Nat → Quad A → Option (Quad A)
  | 0, _, sums => some sums
  | 1, k, sums => do
    let coefficient ← reversed[k]?
    let a ← padded[n + k]?
    let b ← padded[n + 1 + k]?
    let c ← padded[n + 2 + k]?
    let d ← padded[n + 3 + k]?
    return {
      first := Accumulator.mac sums.first a coefficient
      second := Accumulator.mac sums.second b coefficient
      third := Accumulator.mac sums.third c coefficient
      fourth := Accumulator.mac sums.fourth d coefficient }
  | left + 2, k, sums => do
    let coefficients ← Packed.read? reversed k
    let a ← Packed.read? padded (n + k)
    let b ← Packed.read? padded (n + 1 + k)
    let c ← Packed.read? padded (n + 2 + k)
    let d ← Packed.read? padded (n + 3 + k)
    blockFrom? padded reversed n left (k + 2)
      { first := Accumulator.dualMac sums.first a coefficients
        second := Accumulator.dualMac sums.second b coefficients
        third := Accumulator.dualMac sums.third c coefficients
        fourth := Accumulator.dualMac sums.fourth d coefficients }

/-- The sums for the outputs at `n`, `n + 1`, `n + 2` and `n + 3`. -/
def block? (padded reversed : Array Int16) (n : Nat) : Option (Quad A) :=
  blockFrom? padded reversed n reversed.size 0 (Quad.replicate Accumulator.zero)

/-- The sums for `count` outputs, one product at a time. -/
def scalarSums? (padded reversed : Array Int16) (count : Nat) : Option (List A) :=
  Buffer.tabulate? 0 count (windowSum? .one padded reversed)

/-- The sums for `count` outputs, in blocks of four and then one by one, two products at a
time. -/
def pairedSums? (padded reversed : Array Int16) (count : Nat) : Option (List A) := do
  let blocks ← Buffer.tabulate? 0 (count / 4) fun i => block? padded reversed (4 * i)
  let remainder ← Buffer.tabulate? (4 * (count / 4)) (count % 4) (windowSum? .two padded reversed)
  return blocks.flatMap Quad.toList ++ remainder

/-- The sums for `count` outputs. -/
def sums? (lanes : Lanes) (padded reversed : Array Int16) (count : Nat) : Option (List A) :=
  match lanes with
  | .one => scalarSums? padded reversed count
  | .two => pairedSums? padded reversed count

/-! ## The kernel -/

/-- The buffers that the kernel works in. -/
structure Buffers where
  destination : Array Int16
  /-- Takes the longer operand between two runs of zeros. -/
  padded : Array Int16
  /-- Takes the shorter operand backwards. -/
  reversed : Array Int16
deriving DecidableEq, Repr

end Saturating

/-- Write the convolution of `a` and `b` over the start of the destination, each sum kept in 64
bits and finished by `Q15.finishSaturating`.  An empty operand writes nothing.  The scratch
buffers keep the layouts that they were given. -/
def saturating (lanes : Lanes) (a b : Array Int16) (buffers : Saturating.Buffers) :
    Outcome Empty Saturating.Buffers :=
  let (x, y) := byLength a b
  let zeros := y.size - 1
  let count := x.size + y.size - 1
  if y.isEmpty then .done buffers
  else if buffers.padded.size < x.size + 2 * zeros then .outOfBounds buffers
  else
    let padded := Buffer.overlay (Saturating.surround x zeros) buffers.padded
    if buffers.reversed.size < y.size then .outOfBounds { buffers with padded }
    else
      let reversed := Buffer.overlay y.reverse buffers.reversed
      if buffers.destination.size < count then .outOfBounds { buffers with padded, reversed }
      else
        match Saturating.sums? lanes (padded.extract 0 (x.size + 2 * zeros))
            (reversed.extract 0 y.size) count with
        | none => .outOfBounds { buffers with padded, reversed }
        | some sums =>
          let samples := (sums.map Q15.finishSaturating).toArray
          .done ⟨Buffer.overlay samples buffers.destination, padded, reversed⟩

end SignalCore.Convolution
