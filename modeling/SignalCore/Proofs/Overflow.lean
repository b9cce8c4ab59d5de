import SignalCore.Proofs.Convolution.Ledger
import SignalCore.Proofs.Matrix.Ledger

/-!
# No overflow on the way

What a kernel writes says little about how its sums came about: a sum that has wrapped twice may be
right in the end.  The two results here are about every single addition.  In 64 bits none of them
overflows, with the samples at their extremes and in either width (`wide_sums_never_overflow`).  In
32 bits the squares of two lowest samples are enough to wrap, but no addition does once one operand
was shifted right by the logarithm of the number of products (`scaled_sums_never_wrap`).
-/

namespace SignalCore

open SignalCore.Convolution SignalCore.Matrix

/-! ## Sums in 64 bits -/

/-- **64 bits are wide enough.**  In either width and for all samples, each accumulator of a
complex product whose shapes conform, and each accumulator of a saturating convolution with fewer
than `2 ^ 33` samples in its shorter operand, holds the exact sum after every single addition; a
call with a buffer that is too short keeps no sums at all.  Neither part of a complex sum is ever
larger in size than `2 ^ 31` for each column of the left factor, and no term is larger than
`2 ^ 31` when it is formed before it is added. -/
theorem wide_sums_never_overflow (lanes : Lanes) :
    (∀ (left right : Matrix) (buffers : Matrix.Buffers),
      Conforms left.toShape right.toShape buffers.destination.toShape →
      ¬ Fits 2 left right buffers ∧
          multiplyComplex lanes left right buffers = .outOfBounds buffers ∨
        ∃ ledgers, ComplexLedgers lanes left right buffers ledgers ∧
          ledgers.length = left.rows.toNat * right.cols.toNat ∧
          ∀ r < left.rows.toNat, ∀ c < right.cols.toNat, ∃ sum,
            ledgers[r * right.cols.toNat + c]? = some sum ∧
            (sum.re.ExactIn Int64 ∧ sum.im.ExactIn Int64) ∧
            (Small left.cols.toNat sum.re ∧ Small left.cols.toNat sum.im) ∧
            sum.re.final ℤ = exactRe left right r c ∧ sum.im.final ℤ = exactIm left right r c) ∧
    (∀ (a b : Array Int16) (buffers : Saturating.Buffers), min a.size b.size < 2 ^ 33 →
      ¬ buffers.Fit a b ∧ (∃ left, saturating lanes a b buffers = .outOfBounds left) ∨
        ∃ ledgers, Saturating.Ledgers lanes a b buffers ledgers ∧
          ledgers.length = outputLength a.size b.size ∧
          ∀ n < outputLength a.size b.size, ∃ ledger, ledgers[n]? = some ledger ∧
            ledger.ExactIn Int64 ∧ ledger.final ℤ = exactSum a b n) := by
  constructor
  · intro left right buffers hshape
    by_cases hfit : Fits 2 left right buffers
    · exact .inr (exists_exact_complexLedgers lanes hshape hfit)
    · exact .inl ⟨hfit, multiplyBy_of_not_fits hshape hfit⟩
  · intro a b buffers hshort
    by_cases hfit : buffers.Fit a b
    · exact .inr (exists_exact_saturating_ledgers lanes hshort hfit)
    · exact .inl ⟨hfit, (saturating_fails_iff lanes a b buffers).2 (not_fit_iff.1 hfit)⟩

/-- Two elements whose four samples are all the lowest one: the imaginary part of their product with
themselves comes to `2 ^ 32`, which is the bound for two columns, and the convolution of eight
lowest samples with themselves passes the range of 32 bits at its middle output. -/
theorem wide_sums_never_overflow_at_lowest :
    (∃ sums : List (ComplexSum Ledger),
      ComplexLedgers .two ⟨⟨1, 2⟩, Array.replicate 4 (-32768)⟩ ⟨⟨2, 1⟩, Array.replicate 4 (-32768)⟩
        ⟨⟨⟨1, 1⟩, #[0, 0]⟩, Array.replicate 4 0⟩ sums ∧
      ∃ sum, sums[0]? = some sum ∧ sum.im.final ℤ = 2 ^ 32 ∧ sum.im.Within (2 ^ 32)) ∧
    (∃ sums, Saturating.Ledgers .two (Array.replicate 8 (-32768)) (Array.replicate 8 (-32768))
        ⟨Array.replicate 15 0, Array.replicate 22 0, Array.replicate 8 0⟩ sums ∧
      ∃ sum, sums[7]? = some sum ∧ sum.ExactIn Int64 ∧ sum.final ℤ = 2 ^ 33) := by
  obtain ⟨hproduct, hconvolution⟩ := wide_sums_never_overflow .two
  constructor
  · rcases hproduct ⟨⟨1, 2⟩, Array.replicate 4 (-32768)⟩ ⟨⟨2, 1⟩, Array.replicate 4 (-32768)⟩
        ⟨⟨⟨1, 1⟩, #[0, 0]⟩, Array.replicate 4 0⟩ (by decide) with ⟨hshort, -⟩ | hsums
    · exact absurd (by decide) hshort
    · obtain ⟨sums, hledgers, -, hat⟩ := hsums
      obtain ⟨sum, hsum, -, ⟨-, hsmall⟩, -, hvalue⟩ := hat 0 (by decide) 0 (by decide)
      exact ⟨sums, hledgers, sum, hsum, hvalue.trans (by decide), hsmall.within⟩
  · rcases hconvolution (Array.replicate 8 (-32768)) (Array.replicate 8 (-32768))
        ⟨Array.replicate 15 0, Array.replicate 22 0, Array.replicate 8 0⟩ (by decide) with
      ⟨hshort, -⟩ | hsums
    · exact absurd ⟨by decide, by decide, by decide⟩ hshort
    · obtain ⟨sums, hledgers, -, hat⟩ := hsums
      obtain ⟨sum, hsum, hexact, hvalue⟩ := hat 7 (by decide)
      exact ⟨sums, hledgers, sum, hsum, hexact, hvalue.trans (by decide)⟩

/-! ## Sums in 32 bits -/

/-- **Scaled operands never wrap.**  In either width each 32-bit accumulator holds the exact sum
after every single addition, in a real product whose shapes conform and of which one factor was
shifted right by the logarithm of the number of columns of the left factor, rounded down, and in a
wrapping convolution of which one operand was shifted right by the logarithm of the shorter length,
if that is at most `65535`.  A call with a buffer that is too short keeps no sums at all. -/
theorem scaled_sums_never_wrap (lanes : Lanes) :
    (∀ (left right : Matrix) (buffers : Matrix.Buffers),
      Conforms left.toShape right.toShape buffers.destination.toShape →
      IsScaledDown (Nat.log2 left.cols.toNat) left.data left.size ∨
        IsScaledDown (Nat.log2 left.cols.toNat) right.data right.size →
      ¬ Fits 1 left right buffers ∧ multiplyReal lanes left right buffers = .outOfBounds buffers ∨
        ∃ ledgers, RealLedgers lanes left right buffers ledgers ∧
          ledgers.length = left.rows.toNat * right.cols.toNat ∧
          ∀ r < left.rows.toNat, ∀ c < right.cols.toNat, ∃ ledger,
            ledgers[r * right.cols.toNat + c]? = some ledger ∧
            ledger.ExactIn Int32 ∧ ledger.final ℤ = exactElement left right r c) ∧
    (∀ a b destination : Array Int16, 0 < a.size → 0 < b.size → min a.size b.size ≤ 65535 →
      IsScaledDown (Nat.log2 (min a.size b.size)) a a.size ∨
        IsScaledDown (Nat.log2 (min a.size b.size)) b b.size →
      destination.size < outputLength a.size b.size ∧
          wrapping lanes a b destination = .outOfBounds destination ∨
        ∃ ledgers, Wrapping.Ledgers lanes a b destination ledgers ∧
          ledgers.length = outputLength a.size b.size ∧
          ∀ n < outputLength a.size b.size, ∃ ledger, ledgers[n]? = some ledger ∧
            ledger.ExactIn Int32 ∧ ledger.final ℤ = exactSum a b n) := by
  constructor
  · intro left right buffers hshape hscaled
    by_cases hfit : Fits 1 left right buffers
    · exact .inr (exists_exact_realLedgers lanes hshape hscaled hfit)
    · exact .inl ⟨hfit, multiplyBy_of_not_fits hshape hfit⟩
  · intro a b destination ha hb hcount hscaled
    by_cases hfit : outputLength a.size b.size ≤ destination.size
    · exact .inr (exists_exact_wrapping_ledgers lanes ha hb hcount hscaled hfit)
    · rw [Nat.not_le] at hfit
      exact .inl ⟨hfit, by rw [wrapping_eq, if_pos hfit]⟩

/-- Three lowest samples, shifted right by one bit, against lowest samples as they are: the sum of
the products comes to three quarters of the range. -/
theorem scaled_sums_never_wrap_at_three :
    (∃ sums, RealLedgers .two ⟨⟨1, 3⟩, #[-16384, -16384, -16384]⟩
        ⟨⟨3, 1⟩, #[-32768, -32768, -32768]⟩ ⟨⟨⟨1, 1⟩, #[0]⟩, #[0, 0, 0]⟩ sums ∧
      ∃ sum, sums[0]? = some sum ∧ sum.ExactIn Int32 ∧ sum.final ℤ = 3 * 2 ^ 29) ∧
    (∃ sums, Wrapping.Ledgers .two #[-32768, -32768, -32768, -32768] #[-16384, -16384, -16384]
        #[0, 0, 0, 0, 0, 0] sums ∧
      ∃ sum, sums[2]? = some sum ∧ sum.ExactIn Int32 ∧ sum.final ℤ = 3 * 2 ^ 29) := by
  have hlowest : scaledDown 1 #[-32768, -32768, -32768] = #[-16384, -16384, -16384] := by
    decide +kernel
  have hscaled : IsScaledDown 1 #[-16384, -16384, -16384] 3 := by
    rw [← hlowest]
    exact isScaledDown_scaledDown 1 _
  obtain ⟨hproduct, hconvolution⟩ := scaled_sums_never_wrap .two
  constructor
  · rcases hproduct ⟨⟨1, 3⟩, #[-16384, -16384, -16384]⟩ ⟨⟨3, 1⟩, #[-32768, -32768, -32768]⟩
        ⟨⟨⟨1, 1⟩, #[0]⟩, #[0, 0, 0]⟩ (by decide) (.inl hscaled) with ⟨hshort, -⟩ | hsums
    · exact absurd (by decide) hshort
    · obtain ⟨sums, hledgers, -, hat⟩ := hsums
      obtain ⟨sum, hsum, hexact, hvalue⟩ := hat 0 (by decide) 0 (by decide)
      exact ⟨sums, hledgers, sum, hsum, hexact, hvalue.trans (by decide)⟩
  · rcases hconvolution #[-32768, -32768, -32768, -32768] #[-16384, -16384, -16384]
        #[0, 0, 0, 0, 0, 0] (by decide) (by decide) (by decide) (.inr hscaled) with
      ⟨hshort, -⟩ | hsums
    · exact absurd hshort (by decide)
    · obtain ⟨sums, hledgers, -, hat⟩ := hsums
      obtain ⟨sum, hsum, hexact, hvalue⟩ := hat 2 (by decide)
      exact ⟨sums, hledgers, sum, hsum, hexact, hvalue.trans (by decide)⟩

end SignalCore
