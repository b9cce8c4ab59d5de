import SignalCore.Proofs.Convolution.Saturating

/-!
# How a saturating convolution ends

The kernel takes its buffers one after the other and lays out each operand as soon as it has the
buffer for it.  The lengths that it asks for are those of the sizing functions, for every pair of
lengths and in both operand orders (`paddedLength_eq`, `reversedLength_eq`, `outputLength_eq`), so
those functions are exact: a call fails just when a buffer is shorter than its length, and what it
leaves behind is told by the first buffer that is (`saturating_fails_in_order`).
-/

namespace SignalCore.Convolution

open Saturating

/-! ## The lengths that the kernel asks for -/

lemma paddedLength_eq {a b : Array Int16} (hempty : ¬ (a.size = 0 ∨ b.size = 0)) :
    paddedLength a.size b.size = (longer a b).size + 2 * ((shorter a b).size - 1) := by
  rw [paddedLength, if_neg (by omega), size_longer, size_shorter]
  omega

lemma reversedLength_eq (a b : Array Int16) :
    reversedLength a.size b.size = (shorter a b).size :=
  (size_shorter a b).symm

lemma outputLength_eq {a b : Array Int16} (hempty : ¬ (a.size = 0 ∨ b.size = 0)) :
    outputLength a.size b.size = (longer a b).size + (shorter a b).size - 1 := by
  rw [outputLength, if_neg hempty, size_longer, size_shorter]
  omega

/-- An empty operand asks for nothing. -/
lemma not_empty_of_lengths {a b : ℕ}
    (h : 0 < paddedLength a b ∨ 0 < reversedLength a b ∨ 0 < outputLength a b) :
    ¬ (a = 0 ∨ b = 0) := by
  intro hempty
  have hmin : min a b = 0 := by omega
  rw [paddedLength, if_pos hmin, reversedLength, hmin, outputLength, if_pos hempty] at h
  omega

/-! ## The layouts in their buffers -/

/-- The first scratch buffer with the longer operand laid out in it. -/
def paddedOver (a b scratch : Array Int16) : Array Int16 :=
  Array.replicate ((shorter a b).size - 1) 0 ++ longer a b ++
    Array.replicate ((shorter a b).size - 1) 0 ++ scratch.extract (paddedLength a.size b.size)

/-- The second scratch buffer with the shorter operand laid out in it. -/
def reversedOver (a b scratch : Array Int16) : Array Int16 :=
  (shorter a b).reverse ++ scratch.extract (reversedLength a.size b.size)

lemma overlay_surround {a b scratch : Array Int16} (hempty : ¬ (a.size = 0 ∨ b.size = 0))
    (hfit : paddedLength a.size b.size ≤ scratch.size) :
    Buffer.overlay (surround (longer a b) ((shorter a b).size - 1)) scratch =
      paddedOver a b scratch := by
  have hsize : (surround (longer a b) ((shorter a b).size - 1)).size =
      paddedLength a.size b.size := by rw [size_surround, paddedLength_eq hempty]
  rw [Buffer.overlay_eq_append (by omega), hsize, paddedOver, surround]

lemma overlay_reverse {a b scratch : Array Int16}
    (hfit : reversedLength a.size b.size ≤ scratch.size) :
    Buffer.overlay (shorter a b).reverse scratch = reversedOver a b scratch := by
  have hsize : (shorter a b).reverse.size = reversedLength a.size b.size := by
    rw [Array.size_reverse, reversedLength_eq]
  rw [Buffer.overlay_eq_append (by omega), hsize, reversedOver]

/-! ## The endings -/

/-- The call in either width, in terms of the sizing functions. -/
lemma saturating_eq_of_lengths (lanes : Lanes) (a b : Array Int16) (buffers : Buffers) :
    saturating lanes a b buffers =
      if a.size = 0 ∨ b.size = 0 then .done buffers
      else if buffers.padded.size < paddedLength a.size b.size then .outOfBounds buffers
      else if buffers.reversed.size < reversedLength a.size b.size then
        .outOfBounds { buffers with padded := paddedOver a b buffers.padded }
      else if buffers.destination.size < outputLength a.size b.size then
        .outOfBounds
          { buffers with
            padded := paddedOver a b buffers.padded
            reversed := reversedOver a b buffers.reversed }
      else
        .done
          { destination :=
              Buffer.overlay (windowSamples (longer a b) (shorter a b)) buffers.destination
            padded := paddedOver a b buffers.padded
            reversed := reversedOver a b buffers.reversed } := by
  rw [saturating_eq lanes rfl rfl]
  by_cases hempty : a.size = 0 ∨ b.size = 0
  · rw [if_pos hempty, if_pos (by rw [size_shorter]; omega)]
  · have hpaddedLength := paddedLength_eq hempty
    have hreversedLength := reversedLength_eq a b
    have hshorter : (shorter a b).size ≠ 0 := by rw [size_shorter]; omega
    rw [if_neg hempty, if_neg hshorter, hpaddedLength, hreversedLength, outputLength_eq hempty]
    split_ifs with hpadded hreversed hdestination
    · rfl
    · rw [overlay_surround hempty (by omega)]
    · rw [overlay_surround hempty (by omega), overlay_reverse (by omega)]
    · rw [overlay_surround hempty (by omega), overlay_reverse (by omega)]

section

variable {a b : Array Int16} {buffers : Buffers}

lemma saturating_of_empty (lanes : Lanes) (hempty : a.size = 0 ∨ b.size = 0) :
    saturating lanes a b buffers = .done buffers := by
  rw [saturating_eq_of_lengths, if_pos hempty]

lemma saturating_of_padded_lt (lanes : Lanes)
    (hpadded : buffers.padded.size < paddedLength a.size b.size) :
    saturating lanes a b buffers = .outOfBounds buffers := by
  have hempty := not_empty_of_lengths (.inl (Nat.zero_lt_of_lt hpadded))
  rw [saturating_eq_of_lengths, if_neg hempty, if_pos hpadded]

lemma saturating_of_reversed_lt (lanes : Lanes)
    (hpadded : paddedLength a.size b.size ≤ buffers.padded.size)
    (hreversed : buffers.reversed.size < reversedLength a.size b.size) :
    saturating lanes a b buffers =
      .outOfBounds { buffers with padded := paddedOver a b buffers.padded } := by
  have hempty := not_empty_of_lengths (.inr (.inl (Nat.zero_lt_of_lt hreversed)))
  rw [saturating_eq_of_lengths, if_neg hempty, if_neg (by omega), if_pos hreversed]

lemma saturating_of_destination_lt (lanes : Lanes)
    (hpadded : paddedLength a.size b.size ≤ buffers.padded.size)
    (hreversed : reversedLength a.size b.size ≤ buffers.reversed.size)
    (hdestination : buffers.destination.size < outputLength a.size b.size) :
    saturating lanes a b buffers =
      .outOfBounds
        { buffers with
          padded := paddedOver a b buffers.padded
          reversed := reversedOver a b buffers.reversed } := by
  have hempty := not_empty_of_lengths (.inr (.inr (Nat.zero_lt_of_lt hdestination)))
  rw [saturating_eq_of_lengths, if_neg hempty, if_neg (by omega), if_neg (by omega),
    if_pos hdestination]

lemma not_fit_iff :
    ¬ buffers.Fit a b ↔ buffers.padded.size < paddedLength a.size b.size ∨
      buffers.reversed.size < reversedLength a.size b.size ∨
      buffers.destination.size < outputLength a.size b.size := by
  constructor
  · intro hfit
    by_contra hlong
    exact hfit ⟨by omega, by omega, by omega⟩
  · rintro hshort ⟨hdestination, hpadded, hreversed⟩
    omega

lemma exists_saturating_of_fit (lanes : Lanes) (hfit : buffers.Fit a b) :
    ∃ left, saturating lanes a b buffers = .done left := by
  by_cases hempty : a.size = 0 ∨ b.size = 0
  · exact ⟨_, saturating_of_empty lanes hempty⟩
  · rw [saturating_eq_of_lengths, if_neg hempty, if_neg (Nat.not_lt.2 hfit.padded),
      if_neg (Nat.not_lt.2 hfit.reversed), if_neg (Nat.not_lt.2 hfit.destination)]
    exact ⟨_, rfl⟩

end

lemma saturating_fails_iff (lanes : Lanes) (a b : Array Int16) (buffers : Buffers) :
    (∃ left, saturating lanes a b buffers = .outOfBounds left) ↔
      buffers.padded.size < paddedLength a.size b.size ∨
        buffers.reversed.size < reversedLength a.size b.size ∨
        buffers.destination.size < outputLength a.size b.size := by
  constructor
  · rintro ⟨left, hfail⟩
    rw [← not_fit_iff]
    intro hfit
    obtain ⟨left', hdone⟩ := exists_saturating_of_fit lanes hfit
    rw [hdone] at hfail
    cases hfail
  · intro hshort
    by_cases hpadded : buffers.padded.size < paddedLength a.size b.size
    · exact ⟨_, saturating_of_padded_lt lanes hpadded⟩
    · rw [Nat.not_lt] at hpadded
      by_cases hreversed : buffers.reversed.size < reversedLength a.size b.size
      · exact ⟨_, saturating_of_reversed_lt lanes hpadded hreversed⟩
      · exact ⟨_, saturating_of_destination_lt lanes hpadded (Nat.not_lt.1 hreversed) (by omega)⟩

lemma saturating_done_iff (lanes : Lanes) (a b : Array Int16) (buffers : Buffers) :
    (∃ left, saturating lanes a b buffers = .done left) ↔ buffers.Fit a b := by
  constructor
  · rintro ⟨left, hdone⟩
    have hfail : ¬ ∃ left, saturating lanes a b buffers = .outOfBounds left := by
      rintro ⟨left', hfail⟩
      rw [hdone] at hfail
      cases hfail
    rwa [saturating_fails_iff, ← not_fit_iff, not_not] at hfail
  · exact exists_saturating_of_fit lanes

/-- A call that fails has not come to the destination. -/
lemma destination_of_fails {lanes : Lanes} {a b : Array Int16} {buffers left : Buffers}
    (hfail : saturating lanes a b buffers = .outOfBounds left) :
    left.destination = buffers.destination := by
  rw [saturating_eq_of_lengths] at hfail
  split_ifs at hfail <;> cases hfail <;> rfl

/-- **A saturating convolution fails in order.**  For operands and buffers of any lengths a call
fails just when a buffer is shorter than its sizing function says, and otherwise runs to its end;
with an empty operand it does so without a write.  A failure never reaches the destination.  It
leaves all as it was if the first scratch buffer is too short, the first layout and nothing else if
the second one is, and both layouts if only the destination is. -/
theorem saturating_fails_in_order (lanes : Lanes) (a b : Array Int16) (buffers : Buffers) :
    ((∃ left, saturating lanes a b buffers = .outOfBounds left) ↔
      buffers.padded.size < paddedLength a.size b.size ∨
        buffers.reversed.size < reversedLength a.size b.size ∨
        buffers.destination.size < outputLength a.size b.size) ∧
    ((∃ left, saturating lanes a b buffers = .done left) ↔ buffers.Fit a b) ∧
    (a.size = 0 ∨ b.size = 0 → saturating lanes a b buffers = .done buffers) ∧
    (∀ left, saturating lanes a b buffers = .outOfBounds left →
      left.destination = buffers.destination) ∧
    (buffers.padded.size < paddedLength a.size b.size →
      saturating lanes a b buffers = .outOfBounds buffers) ∧
    (paddedLength a.size b.size ≤ buffers.padded.size →
      buffers.reversed.size < reversedLength a.size b.size →
      saturating lanes a b buffers =
        .outOfBounds { buffers with padded := paddedOver a b buffers.padded }) ∧
    (paddedLength a.size b.size ≤ buffers.padded.size →
      reversedLength a.size b.size ≤ buffers.reversed.size →
      buffers.destination.size < outputLength a.size b.size →
      saturating lanes a b buffers =
        .outOfBounds
          { buffers with
            padded := paddedOver a b buffers.padded
            reversed := reversedOver a b buffers.reversed }) :=
  ⟨saturating_fails_iff lanes a b buffers, saturating_done_iff lanes a b buffers,
    saturating_of_empty lanes, fun _ => destination_of_fails, saturating_of_padded_lt lanes,
    saturating_of_reversed_lt lanes, saturating_of_destination_lt lanes⟩

/-- The shorter operand given first, and a second scratch buffer that is one sample too short for
it: the longer operand stands between its zeros, before a sample that was there already. -/
theorem saturating_fails_in_order_past_padding :
    saturating .two #[-32768, 5] #[1, 2, -3] ⟨#[9, 9, 9, 9], #[8, 8, 8, 8, 8, 6], #[7]⟩ =
      .outOfBounds ⟨#[9, 9, 9, 9], #[0, 1, 2, -3, 0, 6], #[7]⟩ := by
  obtain ⟨-, -, -, -, -, hreversed, -⟩ := saturating_fails_in_order .two #[-32768, 5] #[1, 2, -3]
    ⟨#[9, 9, 9, 9], #[8, 8, 8, 8, 8, 6], #[7]⟩
  rw [hreversed (by decide) (by decide)]
  decide +kernel

end SignalCore.Convolution
