import SignalCore.Convolution.Basic
import SignalCore.Outcome

/-!
# Wrapping convolution

Sums are kept in 32 bits and finished by dropping high bits, and no scratch space is used.  With
`x` the longer operand and `y` the shorter one, output `n` is the sum of `x[k] * y[n - k]` over
all `k` at which both exist.  The outputs fall into three phases by the first and last such `k`:

* ramp-up, `n + 1 < y.size`: from `0` through `n`;
* steady state, `y.size ≤ n + 1 ≤ x.size`: the last `y.size` positions through `n`;
* ramp-down, `x.size ≤ n`: up to the end of `x`.

`scalarSums?` takes the taps of each output one at a time.  `pairedSums?` takes them two at a time,
and the steady state in blocks of four outputs that share the pairs they read.
-/

namespace SignalCore.Convolution.Wrapping

variable {A : Type} [Accumulator A]

/-! ## The sum for one output -/

/-- The products `x[k] * y[n - k]` for a given number of positions from `k` on. -/
def tapsFrom? (x y : Array Int16) (n : Nat) : Nat → Nat → A → Option A
  | 0, _, sum => some sum
  | count + 1, k, sum => do
    let a ← x[k]?
    let b ← if k ≤ n then y[n - k]? else none
    tapsFrom? x y n count (k + 1) (Accumulator.mac sum a b)

/-- The sum of `x[k] * y[n - k]` for `first ≤ k < last`. -/
def taps? (x y : Array Int16) (n first last : Nat) : Option A :=
  tapsFrom? x y n (last - first) first Accumulator.zero

/-- The products `x[k] * y[n - k]` for a given number of positions from `k` on, two at a time. -/
def tapsPairedFrom? (x y : Array Int16) (n : Nat) : Nat → Nat → A → Option A
  | 0, _, sum => some sum
  | 1, k, sum => do
    let a ← x[k]?
    let b ← if k ≤ n then y[n - k]? else none
    return Accumulator.mac sum a b
  | count + 2, k, sum => do
    let a ← Packed.read? x k
    let b ← if k ≤ n then Packed.readBack? y (n - k) else none
    tapsPairedFrom? x y n count (k + 2) (Accumulator.dualMac sum a b)

/-- The sum of `x[k] * y[n - k]` for `first ≤ k < last`, two products at a time. -/
def tapsPaired? (x y : Array Int16) (n first last : Nat) : Option A :=
  tapsPairedFrom? x y n (last - first) first Accumulator.zero

/-! ## Four steady outputs at once -/

/-- Carry four neighbouring sums through the taps that are left, two taps at a time.  `k` samples
of each window are behind, `near` and `next` are the pairs of `x` at `start + k` and
`start + k + 1`, and the number of taps left is the argument that shrinks. -/
def steadyPairs? (x y : Array Int16) (start : Nat) :
    Nat → Nat → Packed → Packed → Quad A → Option (Quad A)
  | 0, _, _, _, sums => some sums
  | 1, _, _, _, sums => some sums
  | left + 2, k, near, next, sums => do
    let coefficients ← Packed.readBack? y (left + 1)
    let third ← Packed.read? x (start + k + 2)
    let fourth ← Packed.read? x (start + k + 3)
    steadyPairs? x y start left (k + 2) third fourth
      { first := Accumulator.dualMac sums.first near coefficients
        second := Accumulator.dualMac sums.second next coefficients
        third := Accumulator.dualMac sums.third third coefficients
        fourth := Accumulator.dualMac sums.fourth fourth coefficients }

/-- Add the tap that an odd number of coefficients leaves over: the first coefficient against the
last sample of each window. -/
def steadyTail? (x y : Array Int16) (start : Nat) (sums : Quad A) : Option (Quad A) := do
  if y.size % 2 = 1 then
    let coefficient ← y[0]?
    let last := start + (y.size - 1)
    let a ← x[last]?
    let b ← x[last + 1]?
    let c ← x[last + 2]?
    let d ← x[last + 3]?
    return {
      first := Accumulator.mac sums.first a coefficient
      second := Accumulator.mac sums.second b coefficient
      third := Accumulator.mac sums.third c coefficient
      fourth := Accumulator.mac sums.fourth d coefficient }
  else return sums

/-- The sums for the four steady outputs whose windows start at `start`, `start + 1`, `start + 2`
and `start + 3`. -/
def steadyBlock? (x y : Array Int16) (start : Nat) : Option (Quad A) := do
  let sums := Quad.replicate Accumulator.zero
  if 2 ≤ y.size then
    let near ← Packed.read? x start
    let next ← Packed.read? x (start + 1)
    steadyTail? x y start (← steadyPairs? x y start y.size 0 near next sums)
  else steadyTail? x y start sums

/-! ## All outputs -/

/-- The sums for all outputs, one product at a time. -/
def scalarSums? (x y : Array Int16) : Option (List A) := do
  let rampUp ← Buffer.tabulate? 0 (y.size - 1) fun n => taps? x y n 0 (n + 1)
  let steady ← Buffer.tabulate? (y.size - 1) (x.size + 1 - y.size) fun n =>
    taps? x y n (n + 1 - y.size) (n + 1)
  let rampDown ← Buffer.tabulate? x.size (y.size - 1) fun n =>
    taps? x y n (n + 1 - y.size) x.size
  return rampUp ++ steady ++ rampDown

/-- The sums for all outputs, two products at a time and the steady state in blocks of four. -/
def pairedSums? (x y : Array Int16) : Option (List A) := do
  let rampUp ← Buffer.tabulate? 0 (y.size - 1) fun n => tapsPaired? x y n 0 (n + 1)
  let steady := x.size + 1 - y.size
  let blocks ← Buffer.tabulate? 0 (steady / 4) fun block => steadyBlock? x y (4 * block)
  let remainder ← Buffer.tabulate? (y.size - 1 + 4 * (steady / 4)) (steady % 4) fun n =>
    tapsPaired? x y n (n + 1 - y.size) (n + 1)
  let rampDown ← Buffer.tabulate? x.size (y.size - 1) fun n =>
    tapsPaired? x y n (n + 1 - y.size) x.size
  return rampUp ++ blocks.flatMap Quad.toList ++ remainder ++ rampDown

/-- The sums for all outputs of the convolution of `x`, the longer operand, with `y`. -/
def sums? (lanes : Lanes) (x y : Array Int16) : Option (List A) :=
  match lanes with
  | .one => scalarSums? x y
  | .two => pairedSums? x y

end Wrapping

/-- Write the convolution of `a` and `b` over the start of `destination`, each sum kept in 32 bits
and finished by `Q15.finishWrapping`.  An empty operand writes nothing. -/
def wrapping (lanes : Lanes) (a b destination : Array Int16) : Outcome Empty (Array Int16) :=
  let (x, y) := byLength a b
  if y.isEmpty then .done destination
  else if destination.size < x.size + y.size - 1 then .outOfBounds destination
  else match Wrapping.sums? lanes x y with
    | none => .outOfBounds destination
    | some sums => .done (Buffer.overlay (sums.map Q15.finishWrapping).toArray destination)

end SignalCore.Convolution
