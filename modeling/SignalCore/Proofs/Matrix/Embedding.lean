import SignalCore.Proofs.Matrix.Complex
import SignalCore.Proofs.Matrix.Real

/-!
# Real matrices as complex ones

A real matrix becomes a complex one with a zero beside every sample (`embedded`).  Products go
along: the exact complex product of two such matrices has the elements of the exact real product as
its real parts and zeros as its imaginary ones (`exactRe_embedded`, `exactIm_embedded`).  The two
kernels then start from the same sums and differ in how they finish them
(`embedded_product_agrees`).
-/

namespace SignalCore.Matrix

/-- The complex matrix with these samples as its real parts and zeros as its imaginary ones. -/
def embedded (matrix : Matrix) : Matrix :=
  { matrix with data := (matrix.data.toList.flatMap fun sample => [sample, 0]).toArray }

@[simp]
lemma size_data_embedded (matrix : Matrix) :
    matrix.embedded.data.size = 2 * matrix.data.size := by
  rw [embedded, List.size_toArray, length_flatMap_pair (fun sample => sample), Array.length_toList]

lemma valueAt_embedded_re (matrix : Matrix) (i : ℕ) :
    valueAt matrix.embedded.data (2 * i) = valueAt matrix.data i := by
  apply valueAt_congr
  rw [embedded, List.getElem?_toArray, (getElem?_flatMap_pair (fun sample => sample) _ _ i).1,
    Option.map_id', Array.getElem?_toList]

lemma valueAt_embedded_im (matrix : Matrix) (i : ℕ) :
    valueAt matrix.embedded.data (2 * i + 1) = 0 := by
  have hread : matrix.embedded.data[2 * i + 1]? = matrix.data[i]?.map fun _ => 0 := by
    rw [embedded, List.getElem?_toArray, (getElem?_flatMap_pair (fun sample => sample) _ _ i).2,
      Array.getElem?_toList]
  rw [valueAt, Array.getD_eq_getD_getElem?, hread]
  cases matrix.data[i]? <;> rfl

lemma exactRe_embedded (left right : Matrix) (r c : ℕ) :
    exactRe left.embedded right.embedded r c = exactElement left right r c := by
  refine Finset.sum_congr rfl fun k _ => ?_
  rw [reAt, reAt, imAt, imAt, valueAt_embedded_re, valueAt_embedded_re, valueAt_embedded_im,
    zero_mul, sub_zero]
  rfl

lemma exactIm_embedded (left right : Matrix) (r c : ℕ) :
    exactIm left.embedded right.embedded r c = 0 := by
  refine Finset.sum_eq_zero fun k _ => ?_
  rw [imAt, imAt, valueAt_embedded_im, valueAt_embedded_im, mul_zero, zero_mul, add_zero]

/-! ## Both products of one pair of factors -/

/-- Real factors that fit, fit as complex ones into buffers of twice the length. -/
lemma fits_embedded {left right : Matrix} {buffers : Buffers}
    (hleft : left.rows.toNat * left.cols.toNat ≤ left.data.size)
    (hright : right.rows.toNat * right.cols.toNat ≤ right.data.size)
    (hdestination : 2 * (left.rows.toNat * right.cols.toNat) ≤ buffers.destination.data.size)
    (hscratch : 2 * (right.rows.toNat * right.cols.toNat) ≤ buffers.scratch.size) :
    Fits 2 left.embedded right.embedded buffers := by
  refine ⟨?_, ?_, hdestination, hscratch⟩
  · rw [size_data_embedded]
    exact Nat.mul_le_mul_left 2 hleft
  · rw [size_data_embedded]
    exact Nat.mul_le_mul_left 2 hright

/-- What a call on embedded factors that conform and fit leaves in the destination. -/
lemma exists_embeddedProduct (lanes : Lanes) {left right : Matrix} {buffers : Buffers}
    (hshape : Conforms left.toShape right.toShape buffers.destination.toShape)
    (hfit : Fits 2 left.embedded right.embedded buffers) :
    ∃ data scratch, multiplyComplex lanes left.embedded right.embedded buffers =
        .done ⟨{ buffers.destination with data }, scratch⟩ ∧
      ∀ r < left.rows.toNat, ∀ c < right.cols.toNat,
        data[2 * (r * right.cols.toNat + c)]? =
            some (Q15.saturate (exactElement left right r c / 2 ^ 15)) ∧
          data[2 * (r * right.cols.toNat + c) + 1]? = some 0 := by
  have hembedded : Conforms left.embedded.toShape right.embedded.toShape
      buffers.destination.toShape := hshape
  obtain ⟨data, scratch, hproduct, hparts⟩ := exists_complexProduct lanes hembedded hfit
  refine ⟨data, scratch, hproduct, ?_⟩
  intro r hr c hc
  have hparts' := hparts r hr c hc
  rwa [exactRe_embedded, exactIm_embedded] at hparts'

/-- **Real and complex products agree up to the finish.**  Take real factors that conform, and
buffers that are long enough for their real product and for the complex product of the same factors
with zero imaginary parts.  Both calls succeed.  An element of the complex product has the imaginary
part zero and a real part that is held at the rails where the element of the real product wraps
around, so the two samples are the same wherever the exact sum is in range. -/
theorem embedded_product_agrees (lanes lanes' : Lanes) (left right : Matrix)
    (real complex : Buffers)
    (hreal : Conforms left.toShape right.toShape real.destination.toShape)
    (hcomplex : Conforms left.toShape right.toShape complex.destination.toShape)
    (hleft : left.rows.toNat * left.cols.toNat ≤ left.data.size)
    (hright : right.rows.toNat * right.cols.toNat ≤ right.data.size)
    (hrealData : left.rows.toNat * right.cols.toNat ≤ real.destination.data.size)
    (hrealScratch : right.rows.toNat * right.cols.toNat ≤ real.scratch.size)
    (hcomplexData : 2 * (left.rows.toNat * right.cols.toNat) ≤ complex.destination.data.size)
    (hcomplexScratch : 2 * (right.rows.toNat * right.cols.toNat) ≤ complex.scratch.size) :
    ∃ wrapped clamped scratch scratch',
      multiplyReal lanes left right real =
        .done ⟨{ real.destination with data := wrapped }, scratch⟩ ∧
      multiplyComplex lanes' left.embedded right.embedded complex =
        .done ⟨{ complex.destination with data := clamped }, scratch'⟩ ∧
      ∀ r < left.rows.toNat, ∀ c < right.cols.toNat, ∃ sample re : Int16,
        let sum := exactElement left right r c
        wrapped[r * right.cols.toNat + c]? = some sample ∧
        clamped[2 * (r * right.cols.toNat + c)]? = some re ∧
        clamped[2 * (r * right.cols.toNat + c) + 1]? = some 0 ∧
        sample.toInt ≡ sum / 2 ^ 15 [ZMOD 2 ^ 16] ∧
        re.toInt = max (-32768) (min (sum / 2 ^ 15) 32767) ∧
        (-2 ^ 30 ≤ sum → sum < 2 ^ 30 → re = sample) := by
  have hfit : Fits 1 left right real := by
    simpa only [Fits, Nat.one_mul] using ⟨hleft, hright, hrealData, hrealScratch⟩
  obtain ⟨wrapped, scratch, hwrapped, hsamples⟩ := exists_realProduct lanes hreal hfit
  obtain ⟨clamped, scratch', hclamped, hparts⟩ := exists_embeddedProduct lanes' hcomplex
    (fits_embedded hleft hright hcomplexData hcomplexScratch)
  refine ⟨wrapped, clamped, scratch, scratch', hwrapped, hclamped, ?_⟩
  intro r hr c hc
  obtain ⟨hre, him⟩ := hparts r hr c hc
  refine ⟨_, _, hsamples r hr c hc, hre, him, (Q15.ofInt_eq_iff_modEq _ _).1 rfl,
    Q15.toInt_saturate _, ?_⟩
  intro hlow hhigh
  exact (Q15.ofInt_eq_saturate (by omega) (by omega)).symm

/-- One row times two columns: the first sum is past the range of 32 bits, and the second one is in
range. -/
theorem embedded_product_agrees_past_overflow :
    let left : Matrix := ⟨⟨1, 2⟩, #[-32768, -32768]⟩
    let right : Matrix := ⟨⟨2, 2⟩, #[-32768, 1, -32768, 2]⟩
    ∃ wrapped clamped scratch scratch',
      multiplyReal .two left right ⟨⟨⟨1, 2⟩, #[9, 9, 7]⟩, #[8, 8, 8, 8]⟩ =
        .done ⟨⟨⟨1, 2⟩, wrapped⟩, scratch⟩ ∧
      multiplyComplex .two left.embedded right.embedded
          ⟨⟨⟨1, 2⟩, #[9, 9, 9, 9]⟩, #[8, 8, 8, 8, 8, 8, 8, 8]⟩ =
        .done ⟨⟨⟨1, 2⟩, clamped⟩, scratch'⟩ ∧
      wrapped[0]? = some (0 : Int16) ∧ clamped[0]? = some (32767 : Int16) ∧
      ∃ sample : Int16, wrapped[1]? = some sample ∧ clamped[2]? = some sample := by
  intro left right
  obtain ⟨wrapped, clamped, scratch, scratch', hwrapped, hclamped, helements⟩ :=
    embedded_product_agrees .two .two left right ⟨⟨⟨1, 2⟩, #[9, 9, 7]⟩, #[8, 8, 8, 8]⟩
      ⟨⟨⟨1, 2⟩, #[9, 9, 9, 9]⟩, #[8, 8, 8, 8, 8, 8, 8, 8]⟩ ⟨rfl, rfl, rfl⟩ ⟨rfl, rfl, rfl⟩
      (by decide) (by decide) (by decide) (by decide) (by decide) (by decide)
  have hfirst : exactElement left right 0 0 = 2 ^ 31 := by decide
  have hsecond : exactElement left right 0 1 = -98304 := by decide
  obtain ⟨sample, re, hsample, hre, -, hvalue, hrail, -⟩ :=
    helements 0 (by decide) 0 (by decide)
  obtain ⟨sample', re', hsample', hre', -, -, -, hsame⟩ :=
    helements 0 (by decide) 1 (by decide)
  have hzero : sample = 0 := by
    rw [hfirst] at hvalue
    exact ((Q15.ofInt_eq_iff_modEq _ _).2 hvalue).symm
  have hmaximum : re = 32767 := by
    rw [← Int16.toInt_inj, hrail, hfirst]
    decide
  have hagree : re' = sample' := hsame (by rw [hsecond]; decide) (by rw [hsecond]; decide)
  subst hzero hmaximum hagree
  exact ⟨wrapped, clamped, scratch, scratch', hwrapped, hclamped, hsample, hre, re', hsample',
    hre'⟩

end SignalCore.Matrix
