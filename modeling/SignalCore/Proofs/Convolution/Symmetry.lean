import SignalCore.Proofs.Convolution.Ending
import SignalCore.Proofs.Convolution.Wrapping

/-!
# The operands may change places

Both kernels put the longer operand in front, so operands of different lengths are told apart by
length alone and the two calls do the same work (`longer_comm`, `shorter_comm`).  Operands of equal
length keep their places and play different parts in the two calls; there the exact sums are the
same (`exactSum_comm`), and with them what any accumulator holds in the end, so it does not matter
whether a sum has wrapped.

What can be told of the saturating kernel without a look at its scratch buffers is
`map_destination_saturating`, which depends on nothing but the lengths and these sums.
-/

namespace SignalCore

/-- The outcome with its buffers seen through `view`. -/
def Outcome.map {ε β γ : Type} (view : β → γ) : Outcome ε β → Outcome ε γ
  | done buffers => done (view buffers)
  | refused reason buffers => refused reason (view buffers)
  | outOfBounds buffers => outOfBounds (view buffers)

namespace Convolution

open Saturating

/-! ## Lengths and operand order -/

lemma outputLength_comm (a b : ℕ) : outputLength a b = outputLength b a := by
  unfold outputLength
  split_ifs <;> omega

lemma paddedLength_comm (a b : ℕ) : paddedLength a b = paddedLength b a := by
  rw [paddedLength, paddedLength, Nat.min_comm, Nat.max_comm]

lemma reversedLength_comm (a b : ℕ) : reversedLength a b = reversedLength b a :=
  Nat.min_comm a b

lemma fit_comm {buffers : Buffers} {a b : Array Int16} :
    buffers.Fit a b ↔ buffers.Fit b a := by
  rw [← not_iff_not, not_fit_iff, not_fit_iff, paddedLength_comm, reversedLength_comm,
    outputLength_comm]

lemma longer_comm {a b : Array Int16} (h : a.size ≠ b.size) : longer a b = longer b a := by
  rcases Nat.lt_or_gt_of_ne h with hlt | hgt
  · rw [longer, longer, if_neg (by omega), if_pos (by omega)]
  · rw [longer, longer, if_pos (by omega), if_neg (by omega)]

lemma shorter_comm {a b : Array Int16} (h : a.size ≠ b.size) : shorter a b = shorter b a := by
  rcases Nat.lt_or_gt_of_ne h with hlt | hgt
  · rw [shorter, shorter, if_neg (by omega), if_pos (by omega)]
  · rw [shorter, shorter, if_pos (by omega), if_neg (by omega)]

/-! ## Samples -/

lemma wrappedSamples_comm (a b : Array Int16) : wrappedSamples a b = wrappedSamples b a := by
  unfold wrappedSamples
  rw [outputLength_comm]
  simp only [exactSum_comm a b]

/-- The windows give the same samples in both orders, also where a 64-bit sum has wrapped. -/
lemma windowSamples_longer_shorter_comm (a b : Array Int16) :
    windowSamples (longer a b) (shorter a b) = windowSamples (longer b a) (shorter b a) := by
  have hlength : (longer a b).size + (shorter a b).size =
      (longer b a).size + (shorter b a).size := by
    rw [size_longer, size_shorter, size_longer, size_shorter, Nat.max_comm, Nat.min_comm]
  unfold windowSamples
  rw [hlength]
  refine congrArg List.toArray (List.map_congr_left fun n _ => ?_)
  rw [windowTotal_eq_cast, windowTotal_eq_cast, exactSum_longer_shorter, exactSum_longer_shorter,
    exactSum_comm]

/-! ## Whole calls -/

lemma wrapping_comm (lanes : Lanes) (a b destination : Array Int16) :
    wrapping lanes a b destination = wrapping lanes b a destination := by
  rw [wrapping_eq, wrapping_eq, outputLength_comm, wrappedSamples_comm]

/-- What a call says and leaves in the destination: it depends on the operands through their lengths
and the samples of their windows. -/
lemma map_destination_saturating (lanes : Lanes) (a b : Array Int16) (buffers : Buffers) :
    (saturating lanes a b buffers).map Buffers.destination =
      if reversedLength a.size b.size = 0 then .done buffers.destination
      else if buffers.padded.size < paddedLength a.size b.size ∨
          buffers.reversed.size < reversedLength a.size b.size ∨
          buffers.destination.size < outputLength a.size b.size then
        .outOfBounds buffers.destination
      else
        .done (Buffer.overlay (windowSamples (longer a b) (shorter a b)) buffers.destination) := by
  have hempty : reversedLength a.size b.size = 0 ↔ a.size = 0 ∨ b.size = 0 := by
    rw [reversedLength]
    omega
  rw [saturating_eq_of_lengths, if_congr hempty rfl rfl, ite_or (buffers.padded.size < _),
    ite_or (buffers.reversed.size < _)]
  split_ifs <;> rfl

lemma map_destination_saturating_comm (lanes : Lanes) (a b : Array Int16) (buffers : Buffers) :
    (saturating lanes a b buffers).map Buffers.destination =
      (saturating lanes b a buffers).map Buffers.destination := by
  rw [map_destination_saturating, map_destination_saturating, outputLength_comm,
    paddedLength_comm, reversedLength_comm, windowSamples_longer_shorter_comm]

lemma saturating_comm {a b : Array Int16} (h : a.size ≠ b.size) (lanes : Lanes)
    (buffers : Buffers) : saturating lanes a b buffers = saturating lanes b a buffers := by
  rw [saturating_eq lanes (longer_comm h) (shorter_comm h), saturating_eq lanes rfl rfl]

/-- **Both convolutions are commutative, as whole calls.**  For operands and buffers of any lengths,
empty operands and buffers that are too short included, both orders of the operands end the same way
and leave the same destination.  The saturating kernel leaves the same layouts in its scratch
buffers as well if the operands differ in length. -/
theorem kernels_comm (lanes : Lanes) (a b : Array Int16) :
    (∀ destination : Array Int16,
      wrapping lanes a b destination = wrapping lanes b a destination) ∧
    ∀ buffers : Buffers,
      (saturating lanes a b buffers).map Buffers.destination =
        (saturating lanes b a buffers).map Buffers.destination ∧
      (a.size ≠ b.size → saturating lanes a b buffers = saturating lanes b a buffers) := by
  constructor
  · intro destination
    exact wrapping_comm lanes a b destination
  · intro buffers
    exact ⟨map_destination_saturating_comm lanes a b buffers,
      fun h => saturating_comm h lanes buffers⟩

/-- Two samples against three, with a destination that is too short: the call fails after it has
laid out both operands. -/
theorem kernels_comm_past_layouts :
    let a : Array Int16 := #[-32768, 5]
    let b : Array Int16 := #[1, 2, -3]
    let buffers : Buffers := ⟨#[9, 9, 9], #[8, 8, 8, 8, 8, 8], #[7, 7, 7]⟩
    saturating .two a b buffers = .outOfBounds ⟨#[9, 9, 9], #[0, 1, 2, -3, 0, 8], #[5, -32768, 7]⟩ ∧
      saturating .two a b buffers = saturating .two b a buffers := by
  intro a b buffers
  exact ⟨by decide +kernel, ((kernels_comm .two a b).2 buffers).2 (by decide)⟩

end Convolution

end SignalCore
