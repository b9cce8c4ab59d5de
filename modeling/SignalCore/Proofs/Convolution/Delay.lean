import SignalCore.Proofs.Convolution.Symmetry

/-!
# Zeros around an operand

Zeros before an operand delay the convolution by as many outputs, and zeros behind it let it run on
with zeros.  For the exact sums that is a shift of the index (`exactSum_zeroPadded`), and a finish
that sends zero to zero takes it to the samples (`finishedSamples_zeroPadded`).

The two runs of a kernel have little else in common: a padded operand may be the longer one where it
was the shorter one before, and the phases, the blocks of four and the layouts start and end
elsewhere.  That does not show, since a call in either order leaves nothing of the operands but
their finished sums (`Wrapping.gives_finishedSamples`, `Saturating.gives_finishedSamples`).
-/

namespace SignalCore.Convolution

open Finset Saturating

/-- Samples with `before` zeros in front of them and `after` zeros behind them. -/
def zeroPadded (before after : ℕ) (samples : Array Int16) : Array Int16 :=
  Array.replicate before 0 ++ samples ++ Array.replicate after 0

@[simp]
lemma size_zeroPadded (before after : ℕ) (samples : Array Int16) :
    (zeroPadded before after samples).size = before + samples.size + after := by
  simp [zeroPadded, Nat.add_assoc]

lemma getElem?_zeroPadded (before after : ℕ) (samples : Array Int16) (i : ℕ) :
    (zeroPadded before after samples)[i]? =
      if i < before then some 0
      else if i < before + samples.size then samples[i - before]?
      else if i < before + samples.size + after then some 0 else none := by
  simp only [zeroPadded, Array.getElem?_append, Array.size_append, Array.size_replicate,
    Array.getElem?_replicate]
  split_ifs <;> first | rfl | omega

/-! ## Exact sums -/

lemma exactSum_eq_sum_range (a b : Array Int16) (n : ℕ) :
    exactSum a b n = ∑ k ∈ range (n + 1), valueAt a k * valueAt b (n - k) := by
  rw [exactSum_eq_sum_antidiagonal, Nat.sum_antidiagonal_eq_sum_range_succ_mk]

/-- No taps are left behind the last output. -/
lemma exactSum_of_size_le {a b : Array Int16} {n : ℕ} (hn : a.size + b.size ≤ n + 1) :
    exactSum a b n = 0 := by
  rw [exactSum_eq_sum_Ico, Ico_eq_empty (by omega), sum_empty]

/-- Padding an operand shifts the exact sums. -/
lemma exactSum_zeroPadded (before after : ℕ) (a b : Array Int16) (n : ℕ) :
    exactSum (zeroPadded before after a) b n =
      if n < before then 0 else exactSum a b (n - before) := by
  have hvalue : ∀ k, valueAt (zeroPadded before after a) k =
      if k < before then 0 else valueAt a (k - before) :=
    valueAt_between_zeros before after a
  rw [exactSum_eq_sum_range]
  split_ifs with hn
  · refine sum_eq_zero fun k hk => ?_
    rw [mem_range] at hk
    rw [hvalue, if_pos (by omega), zero_mul]
  · obtain ⟨m, rfl⟩ := Nat.exists_eq_add_of_le (Nat.not_lt.1 hn)
    have hzeros : ∑ k ∈ range before,
        valueAt (zeroPadded before after a) k * valueAt b (before + m - k) = 0 := by
      refine sum_eq_zero fun k hk => ?_
      rw [hvalue, if_pos (mem_range.1 hk), zero_mul]
    rw [Nat.add_assoc, sum_range_add, hzeros, zero_add, Nat.add_sub_cancel_left,
      exactSum_eq_sum_range]
    refine sum_congr rfl fun k _ => ?_
    rw [hvalue, if_neg (by omega), Nat.add_sub_cancel_left, Nat.add_sub_add_left]

/-! ## Samples -/

/-- The samples of a convolution, each exact sum finished in the same way. -/
def finishedSamples (finish : ℤ → Int16) (a b : Array Int16) : Array Int16 :=
  ((List.range' 0 (outputLength a.size b.size)).map fun n => finish (exactSum a b n)).toArray

@[simp]
lemma size_finishedSamples (finish : ℤ → Int16) (a b : Array Int16) :
    (finishedSamples finish a b).size = outputLength a.size b.size := by
  simp [finishedSamples]

lemma getElem?_finishedSamples (finish : ℤ → Int16) (a b : Array Int16) (n : ℕ) :
    (finishedSamples finish a b)[n]? =
      if n < outputLength a.size b.size then some (finish (exactSum a b n)) else none := by
  split_ifs with hn
  · simp [finishedSamples, hn]
  · exact Array.getElem?_eq_none (by simpa using hn)

/-- Padding an operand pads the samples. -/
lemma finishedSamples_zeroPadded {finish : ℤ → Int16} (hzero : finish 0 = 0) (before after : ℕ)
    {a b : Array Int16} (ha : 0 < a.size) (hb : 0 < b.size) :
    finishedSamples finish (zeroPadded before after a) b =
      zeroPadded before after (finishedSamples finish a b) := by
  apply Array.ext_getElem?
  intro n
  rw [getElem?_finishedSamples, getElem?_zeroPadded, getElem?_finishedSamples,
    exactSum_zeroPadded, size_finishedSamples, size_zeroPadded, outputLength_of_pos ha hb,
    outputLength_of_pos (by omega) hb]
  by_cases hbefore : n < before
  · rw [if_pos (by omega), if_pos hbefore, if_pos hbefore, hzero]
  · rw [if_neg hbefore, if_neg hbefore]
    by_cases hinside : n < before + (a.size + b.size - 1)
    · rw [if_pos (by omega), if_pos hinside, if_pos (by omega)]
    · rw [if_neg hinside, exactSum_of_size_le (by omega), hzero]
      exact if_congr (by omega) rfl rfl

/-! ## Calls -/

/-- A wrapping convolution of two operands, in either order, writes `samples` over the start of any
destination that holds them. -/
structure Wrapping.Gives (lanes : Lanes) (a b samples : Array Int16) : Prop where
  size : samples.size = outputLength a.size b.size
  call : ∀ destination : Array Int16, samples.size ≤ destination.size →
    wrapping lanes a b destination = .done (samples ++ destination.extract samples.size)
  swapped : ∀ destination : Array Int16, samples.size ≤ destination.size →
    wrapping lanes b a destination = .done (samples ++ destination.extract samples.size)

/-- A saturating convolution of two operands, in either order, writes `samples` over the start of
the destination in any buffers that are long enough. -/
structure Saturating.Gives (lanes : Lanes) (a b samples : Array Int16) : Prop where
  size : samples.size = outputLength a.size b.size
  call : ∀ buffers : Buffers, buffers.Fit a b →
    (saturating lanes a b buffers).map Buffers.destination =
      .done (samples ++ buffers.destination.extract samples.size)
  swapped : ∀ buffers : Buffers, buffers.Fit b a →
    (saturating lanes b a buffers).map Buffers.destination =
      .done (samples ++ buffers.destination.extract samples.size)

/-- What a wrapping convolution makes of an exact sum. -/
def Wrapping.finish (sum : ℤ) : Int16 :=
  Int16.ofInt (sum / 2 ^ 15)

/-- What a saturating convolution makes of an exact sum, which it keeps modulo `2 ^ 64`. -/
def Saturating.finish (sum : ℤ) : Int16 :=
  Q15.finishSaturating (Int64.ofInt sum)

lemma Wrapping.gives_finishedSamples (lanes : Lanes) (a b : Array Int16) :
    Wrapping.Gives lanes a b (finishedSamples Wrapping.finish a b) where
  size := size_finishedSamples _ a b
  call destination hfit := by
    have hlong : outputLength a.size b.size ≤ destination.size := by simpa using hfit
    rw [wrapping_eq, if_neg (Nat.not_lt.2 hlong), ← Buffer.overlay_eq_append hfit]
    rfl
  swapped destination hfit := by
    have hlong : outputLength a.size b.size ≤ destination.size := by simpa using hfit
    rw [wrapping_comm, wrapping_eq, if_neg (Nat.not_lt.2 hlong), ← Buffer.overlay_eq_append hfit]
    rfl

/-- A window total stands for its exact sum, also where it has wrapped. -/
lemma windowSamples_eq_finishedSamples {a b : Array Int16} (ha : 0 < a.size) (hb : 0 < b.size) :
    windowSamples (longer a b) (shorter a b) = finishedSamples Saturating.finish a b := by
  have hlength := outputLength_eq (a := a) (b := b) (by omega)
  rw [windowSamples, finishedSamples, hlength]
  refine congrArg List.toArray (List.map_congr_left fun n _ => ?_)
  rw [windowTotal_eq_cast, exactSum_longer_shorter]
  rfl

lemma Saturating.gives_finishedSamples (lanes : Lanes) {a b : Array Int16} (ha : 0 < a.size)
    (hb : 0 < b.size) : Saturating.Gives lanes a b (finishedSamples Saturating.finish a b) := by
  have hcall : ∀ buffers : Buffers, buffers.Fit a b →
      (saturating lanes a b buffers).map Buffers.destination =
        .done (finishedSamples Saturating.finish a b ++
          buffers.destination.extract (finishedSamples Saturating.finish a b).size) := by
    intro buffers hfit
    have hroom : (finishedSamples Saturating.finish a b).size ≤ buffers.destination.size := by
      simpa using hfit.destination
    have hempty : reversedLength a.size b.size ≠ 0 := by
      rw [reversedLength]
      omega
    rw [map_destination_saturating, if_neg hempty, if_neg fun hshort => not_fit_iff.2 hshort hfit,
      windowSamples_eq_finishedSamples ha hb, Buffer.overlay_eq_append hroom]
  refine ⟨size_finishedSamples _ a b, hcall, ?_⟩
  intro buffers hfit
  rw [map_destination_saturating_comm]
  exact hcall buffers (fit_comm.1 hfit)

/-- **Zeros only delay a convolution.**  For operands that are not empty and any numbers of zeros
before and behind one of them, both kernels, in either width and with either order of the operands,
give as many zeros, then the samples that they give without the padding, and then zeros again. -/
theorem zeros_delay_convolution (lanes : Lanes) (a b : Array Int16) (ha : 0 < a.size)
    (hb : 0 < b.size) (before after : ℕ) :
    (∃ samples, Wrapping.Gives lanes a b samples ∧
      Wrapping.Gives lanes (zeroPadded before after a) b (zeroPadded before after samples)) ∧
    (∃ samples, Saturating.Gives lanes a b samples ∧
      Saturating.Gives lanes (zeroPadded before after a) b
        (zeroPadded before after samples)) := by
  have hpadded : 0 < (zeroPadded before after a).size := by
    rw [size_zeroPadded]
    omega
  constructor
  · refine ⟨_, Wrapping.gives_finishedSamples lanes a b, ?_⟩
    rw [← finishedSamples_zeroPadded (by decide) before after ha hb]
    exact Wrapping.gives_finishedSamples lanes _ b
  · refine ⟨_, Saturating.gives_finishedSamples lanes ha hb, ?_⟩
    rw [← finishedSamples_zeroPadded (by decide) before after ha hb]
    exact Saturating.gives_finishedSamples lanes hpadded hb

/-- Two samples against three: with two zeros before them and one behind, the shorter operand
becomes the longer one, here with the operands in the other order and a destination that has room
for one sample more. -/
theorem zeros_delay_convolution_past_swap :
    ∃ samples, wrapping .two #[-32768, 5] #[1, 2, -3] #[9, 9, 9, 9, 9] =
        .done (samples ++ #[9]) ∧
      wrapping .two #[1, 2, -3] #[0, 0, -32768, 5, 0] #[9, 9, 9, 9, 9, 9, 9, 9] =
        .done (#[0, 0] ++ samples ++ #[0] ++ #[9]) := by
  obtain ⟨⟨samples, hplain, hpadded⟩, -⟩ :=
    zeros_delay_convolution .two #[-32768, 5] #[1, 2, -3] (by decide) (by decide) 2 1
  have hsize : samples.size = 4 := hplain.size
  have hcall := hplain.call #[9, 9, 9, 9, 9] (by rw [hsize]; decide)
  have hswapped := hpadded.swapped #[9, 9, 9, 9, 9, 9, 9, 9] (by rw [hpadded.size]; decide)
  rw [hsize] at hcall
  rw [size_zeroPadded, hsize] at hswapped
  exact ⟨samples, hcall, hswapped⟩

end SignalCore.Convolution
