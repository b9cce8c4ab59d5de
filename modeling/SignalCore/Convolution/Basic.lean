import SignalCore.Buffer
import SignalCore.Fixed.DotProduct

/-!
# Linear convolution: lengths, operand order, blocks of four

The convolution of two runs has one sample for each way that they overlap.  The shorter run
slides across the longer one, so both kernels first put the longer operand in front; operands of
equal length stay as they are.
-/

namespace SignalCore.Convolution

/-- The number of samples of a convolution. -/
def outputLength (a b : Nat) : Nat :=
  if a = 0 ∨ b = 0 then 0 else a + b - 1

/-- The length of the longer operand between two runs of zeros, each one sample shorter than the
shorter operand. -/
def paddedLength (a b : Nat) : Nat :=
  if min a b = 0 then 0 else max a b + 2 * min a b - 2

/-- The length of the shorter operand. -/
def reversedLength (a b : Nat) : Nat :=
  min a b

/-- Two operands, the longer one first. -/
def byLength (a b : Array Int16) : Array Int16 × Array Int16 :=
  if b.size ≤ a.size then (a, b) else (b, a)

/-! ## Four sums side by side -/

/-- The sums for four neighbouring outputs. -/
structure Quad (A : Type) where
  first : A
  second : A
  third : A
  fourth : A
deriving DecidableEq, Repr

namespace Quad

variable {A B : Type}

/-- The same sum four times. -/
def replicate (sum : A) : Quad A := ⟨sum, sum, sum, sum⟩

/-- The sums in output order. -/
def toList (sums : Quad A) : List A :=
  [sums.first, sums.second, sums.third, sums.fourth]

end Quad

end SignalCore.Convolution
