/-!
# Kernel profiles

A profile fixes the two choices that a set of kernels is built with: how many samples an inner
loop takes in one step, and how a number with a fraction becomes a whole sample.
-/

namespace SignalCore

/-- How many samples a kernel takes in one step. -/
inductive Lanes where
  | one
  | two
deriving DecidableEq, Repr

/-- How a number with a fraction becomes a whole one. -/
inductive Rounding where
  /-- The fraction is dropped. -/
  | towardZero
  /-- To the nearest whole number, and a half away from zero. -/
  | halfAwayFromZero
deriving DecidableEq, Repr

/-- The choices that a set of kernels is built with. -/
structure Profile where
  lanes : Lanes
  rounding : Rounding
deriving DecidableEq, Repr

namespace Profile

/-- Two samples a step, fractions dropped. -/
def paired : Profile := ⟨.two, .towardZero⟩

/-- One sample a step, halves rounded away from zero. -/
def scalar : Profile := ⟨.one, .halfAwayFromZero⟩

end Profile

end SignalCore
