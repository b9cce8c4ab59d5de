import SignalCore.Proofs.Convolution.Saturating
import SignalCore.Proofs.Convolution.Wrapping
import SignalCore.Proofs.Matrix.Complex
import SignalCore.Proofs.Matrix.Real
import SignalCore.Proofs.Samples.Offset

/-!
# One sample a step or two

How many samples the inner loops take in one step is a matter of speed alone.  Each kernel ends
the same way in both widths, with the same contents in every buffer, whatever it is given.
-/

namespace SignalCore

/-- **The width of the inner loops is unobservable.**  No kernel tells one sample a step from two:
the outcome and the final contents of every buffer agree for all operands and for buffers of any
contents and any length. -/
theorem kernels_two_lanes_eq_one_lane :
    (∀ a b destination : Array Int16,
      Convolution.wrapping .two a b destination = Convolution.wrapping .one a b destination) ∧
    (∀ (a b : Array Int16) (buffers : Convolution.Saturating.Buffers),
      Convolution.saturating .two a b buffers = Convolution.saturating .one a b buffers) ∧
    (∀ (left right : Matrix) (buffers : Matrix.Buffers),
      left.multiplyReal .two right buffers = left.multiplyReal .one right buffers) ∧
    (∀ (left right : Matrix) (buffers : Matrix.Buffers),
      left.multiplyComplex .two right buffers = left.multiplyComplex .one right buffers) ∧
    (∀ (source : Array Int16) (amount : Int16) (destination : Array Int16),
      Samples.offset .two source amount destination =
        Samples.offset .one source amount destination) := by
  refine ⟨?_, ?_, ?_, ?_, ?_⟩
  · intro a b destination
    rw [Convolution.wrapping_eq, Convolution.wrapping_eq]
  · intro a b buffers
    rw [Convolution.saturating_eq .two rfl rfl, Convolution.saturating_eq .one rfl rfl]
  · intro left right buffers
    exact Matrix.multiplyReal_lanes .two .one left right buffers
  · intro left right buffers
    exact Matrix.multiplyComplex_lanes .two .one left right buffers
  · intro source amount destination
    exact Samples.offset_lanes .two .one source amount destination

end SignalCore
