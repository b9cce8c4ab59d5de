import SignalCore.Proofs.Convolution.Saturating
import SignalCore.Proofs.Convolution.Wrapping
import SignalCore.Proofs.Matrix.Embedding

/-!
# Convolution as a matrix product

The convolution of `a` and `b` is the product of a matrix made of `a`, which has `a[i - k]` at row
`i` and column `k` and zeros elsewhere, with `b` as a column (`toeplitz`, `column`).  The exact sums
are the same (`exactElement_toeplitz`), so each pair of kernels that finishes its sums in one way
gives the same samples: the real product and the wrapping convolution, and the complex product of
the embedded matrices and the saturating convolution (`toeplitz_product_eq_convolution`).
-/

namespace SignalCore.Matrix

open SignalCore.Convolution (exactSum)

/-! ## The factors -/

/-- The Toeplitz matrix of `a` with `cols` columns.  It has a row for each sample of the convolution
of `a` with `cols` samples, and row `i` has `a[i - k]` in column `k`, or zero where there is no such
sample. -/
def toeplitz (a : Array Int16) (cols : ℕ) : Matrix where
  rows := UInt16.ofNat (a.size + cols - 1)
  cols := UInt16.ofNat cols
  data := ((List.range' 0 ((a.size + cols - 1) * cols)).map fun i =>
    if i % cols ≤ i / cols then a.getD (i / cols - i % cols) 0 else 0).toArray

/-- The samples as a matrix of one column. -/
def column (b : Array Int16) : Matrix where
  rows := UInt16.ofNat b.size
  cols := 1
  data := b

lemma size_data_toeplitz (a : Array Int16) (cols : ℕ) :
    (toeplitz a cols).data.size = (a.size + cols - 1) * cols := by
  simp [toeplitz]

/-- The element at row `i` and column `k` is `a[i - k]`, and zero where there is no such sample. -/
lemma valueAt_toeplitz (a : Array Int16) {cols i k : ℕ} (hi : i < a.size + cols - 1)
    (hk : k < cols) :
    valueAt (toeplitz a cols).data (i * cols + k) = if k ≤ i then valueAt a (i - k) else 0 := by
  have hread : (toeplitz a cols).data[i * cols + k]? =
      some (if k ≤ i then a.getD (i - k) 0 else 0) := by
    rw [toeplitz, List.getElem?_toArray, List.getElem?_map,
      List.getElem?_range' (element_lt hi hk), Option.map_some, Nat.one_mul, Nat.zero_add,
      row_of_position hk, col_of_position hk]
  rw [valueAt, Array.getD_eq_getD_getElem?, hread, Option.getD_some]
  split_ifs <;> rfl

lemma toNat_dimension {n : ℕ} (hn : n ≤ 65535) : (UInt16.ofNat n).toNat = n :=
  UInt16.toNat_ofNat_of_lt' (Nat.lt_of_le_of_lt hn (by decide))

/-! ## The exact sums -/

/-- An element of the product of the two factors is the sum of an output of the convolution. -/
lemma exactElement_toeplitz {a b : Array Int16} (hcols : b.size ≤ 65535) {i : ℕ}
    (hi : i < a.size + b.size - 1) :
    exactElement (toeplitz a b.size) (column b) i 0 = exactSum a b i := by
  have hinner : (toeplitz a b.size).cols.toNat = b.size := toNat_dimension hcols
  have hcolumn : (column b).cols.toNat = 1 := rfl
  rw [Convolution.exactSum_comm, exactSum, Finset.sum_filter, exactElement, hinner, hcolumn]
  refine Finset.sum_congr rfl fun k hk => ?_
  rw [Finset.mem_range] at hk
  rw [valueAt_toeplitz a hi hk, Nat.mul_one, Nat.add_zero, mul_comm]
  by_cases hki : k ≤ i
  · rw [if_pos hki]
    split_ifs with htap
    · rfl
    · rw [valueAt_of_size_le a (by omega), mul_zero]
  · rw [if_neg hki, if_neg (by omega), mul_zero]

/-! ## The products -/

section Products

variable {a b : Array Int16} {product : Buffers}

/-- The shapes of the two factors conform to that of a destination with one element for each
output, whether the elements are real or complex. -/
lemma conforms_toeplitz
    (hshape : product.destination.toShape = ⟨UInt16.ofNat (a.size + b.size - 1), 1⟩) :
    Conforms (toeplitz a b.size).toShape (column b).toShape product.destination.toShape := by
  rw [hshape]
  exact ⟨rfl, rfl, rfl⟩

/-- Factors of these shapes fit the buffers that hold an element for each output and a copy of the
column. -/
lemma fits_toeplitz {width : ℕ} {left right : Matrix} (ha : 0 < a.size)
    (hsize : a.size + b.size - 1 ≤ 65535)
    (hleft : left.toShape = (toeplitz a b.size).toShape)
    (hright : right.toShape = (column b).toShape)
    (hleftData : left.data.size = width * (toeplitz a b.size).data.size)
    (hrightData : right.data.size = width * b.size)
    (hdata : width * (a.size + b.size - 1) ≤ product.destination.data.size)
    (hscratch : width * b.size ≤ product.scratch.size) :
    Fits width left right product := by
  have hrows : (toeplitz a b.size).rows.toNat = a.size + b.size - 1 := toNat_dimension hsize
  have hcols : (toeplitz a b.size).cols.toNat = b.size := toNat_dimension (by omega)
  have hinner : (column b).rows.toNat = b.size := toNat_dimension (by omega)
  have hone : (column b).cols.toNat = 1 := rfl
  rw [size_data_toeplitz] at hleftData
  rw [Fits, hleft, hright, Shape.size, Shape.size, hrows, hcols, hinner, hone, Nat.mul_one,
    Nat.mul_one]
  exact ⟨hleftData.ge, hrightData.ge, hdata, hscratch⟩

lemma exists_toeplitz_product (lanes : Lanes) (ha : 0 < a.size)
    (hsize : a.size + b.size - 1 ≤ 65535)
    (hshape : product.destination.toShape = ⟨UInt16.ofNat (a.size + b.size - 1), 1⟩)
    (hdata : a.size + b.size - 1 ≤ product.destination.data.size)
    (hscratch : b.size ≤ product.scratch.size) :
    ∃ data scratch, multiplyReal lanes (toeplitz a b.size) (column b) product =
        .done ⟨{ product.destination with data }, scratch⟩ ∧
      ∀ n < a.size + b.size - 1, data[n]? = some (Int16.ofInt (exactSum a b n / 2 ^ 15)) := by
  have hfit : Fits 1 (toeplitz a b.size) (column b) product :=
    fits_toeplitz ha hsize rfl rfl (Nat.one_mul _).symm (Nat.one_mul _).symm
      (by omega) (by omega)
  obtain ⟨data, scratch, hproduct, hsamples⟩ :=
    exists_realProduct lanes (conforms_toeplitz hshape) hfit
  refine ⟨data, scratch, hproduct, ?_⟩
  intro n hn
  have hrows : (toeplitz a b.size).rows.toNat = a.size + b.size - 1 := toNat_dimension hsize
  have hone : (column b).cols.toNat = 1 := rfl
  have hread := hsamples n (by rwa [hrows]) 0 Nat.one_pos
  rwa [hone, Nat.mul_one, Nat.add_zero, exactElement_toeplitz (by omega) hn] at hread

lemma exists_embedded_toeplitz_product (lanes : Lanes) (ha : 0 < a.size)
    (hsize : a.size + b.size - 1 ≤ 65535)
    (hshape : product.destination.toShape = ⟨UInt16.ofNat (a.size + b.size - 1), 1⟩)
    (hdata : 2 * (a.size + b.size - 1) ≤ product.destination.data.size)
    (hscratch : 2 * b.size ≤ product.scratch.size) :
    ∃ data scratch,
      multiplyComplex lanes (toeplitz a b.size).embedded (column b).embedded product =
        .done ⟨{ product.destination with data }, scratch⟩ ∧
      ∀ n < a.size + b.size - 1,
        data[2 * n]? = some (Q15.saturate (exactSum a b n / 2 ^ 15)) ∧
        data[2 * n + 1]? = some 0 := by
  have hfit : Fits 2 (toeplitz a b.size).embedded (column b).embedded product :=
    fits_toeplitz ha hsize rfl rfl (size_data_embedded _) (size_data_embedded _) hdata hscratch
  obtain ⟨data, scratch, hproduct, hparts⟩ :=
    exists_embeddedProduct lanes (conforms_toeplitz hshape) hfit
  refine ⟨data, scratch, hproduct, ?_⟩
  intro n hn
  have hrows : (toeplitz a b.size).rows.toNat = a.size + b.size - 1 := toNat_dimension hsize
  have hone : (column b).cols.toNat = 1 := rfl
  have hread := hparts n (by rwa [hrows]) 0 Nat.one_pos
  rwa [hone, Nat.mul_one, Nat.add_zero n, exactElement_toeplitz (by omega) hn] at hread

end Products

/-! ## Products and convolutions -/

/-- **A convolution is a product with a Toeplitz matrix, in both precisions.**  The real product of
the two factors has the samples of the wrapping convolution, and the complex product of the embedded
factors has the samples of the saturating convolution as its real parts and zeros as its imaginary
ones, whatever the sums come to and whatever the buffers held. -/
theorem toeplitz_product_eq_convolution (lanes lanes' : Lanes) (a b : Array Int16)
    (ha : 0 < a.size) (hb : 0 < b.size) (hsize : a.size + b.size - 1 ≤ 65535) :
    (∀ (product : Buffers) (destination : Array Int16),
      product.destination.toShape = ⟨UInt16.ofNat (a.size + b.size - 1), 1⟩ →
      a.size + b.size - 1 ≤ product.destination.data.size → b.size ≤ product.scratch.size →
      a.size + b.size - 1 ≤ destination.size →
      ∃ data scratch output,
        multiplyReal lanes (toeplitz a b.size) (column b) product =
          .done ⟨{ product.destination with data }, scratch⟩ ∧
        Convolution.wrapping lanes' a b destination = .done output ∧
        ∀ n < a.size + b.size - 1, ∃ sample : Int16,
          data[n]? = some sample ∧ output[n]? = some sample) ∧
    (∀ (product : Buffers) (buffers : Convolution.Saturating.Buffers),
      product.destination.toShape = ⟨UInt16.ofNat (a.size + b.size - 1), 1⟩ →
      2 * (a.size + b.size - 1) ≤ product.destination.data.size →
      2 * b.size ≤ product.scratch.size → buffers.Fit a b →
      ∃ data scratch output,
        multiplyComplex lanes (toeplitz a b.size).embedded (column b).embedded product =
          .done ⟨{ product.destination with data }, scratch⟩ ∧
        Convolution.saturating lanes' a b buffers = .done output ∧
        ∀ n < a.size + b.size - 1, ∃ sample : Int16,
          data[2 * n]? = some sample ∧ data[2 * n + 1]? = some 0 ∧
          output.destination[n]? = some sample) := by
  constructor
  · intro product destination hshape hdata hscratch hdestination
    obtain ⟨data, scratch, hproduct, hsamples⟩ :=
      exists_toeplitz_product lanes ha hsize hshape hdata hscratch
    rw [← Convolution.outputLength_of_pos ha hb] at hdestination
    obtain ⟨output, hwrapped, houtput⟩ := Convolution.exists_wrapped lanes' ha hb hdestination
    refine ⟨data, scratch, output, hproduct, hwrapped, ?_⟩
    intro n hn
    exact ⟨_, hsamples n hn, houtput n hn⟩
  · intro product buffers hshape hdata hscratch hfit
    obtain ⟨data, scratch, hproduct, hsamples⟩ :=
      exists_embedded_toeplitz_product lanes ha hsize hshape hdata hscratch
    obtain ⟨output, hclamped, houtput⟩ :=
      Convolution.exists_clamped lanes' ha hb (by omega) hfit
    refine ⟨data, scratch, output, hproduct, hclamped, ?_⟩
    intro n hn
    obtain ⟨hre, him⟩ := hsamples n hn
    exact ⟨_, hre, him, houtput n hn⟩

/-- Sums of two products of the lowest samples, which are past the range of 32 bits and beyond the
upper rail. -/
theorem toeplitz_product_eq_convolution_past_overflow :
    let a : Array Int16 := #[-32768, -32768, -32768]
    let b : Array Int16 := #[-32768, -32768]
    let real : Buffers := ⟨⟨⟨4, 1⟩, #[9, 9, 9, 9]⟩, #[8, 8]⟩
    let complex : Buffers := ⟨⟨⟨4, 1⟩, #[9, 9, 9, 9, 9, 9, 9, 9]⟩, #[8, 8, 8, 8]⟩
    let buffers : Convolution.Saturating.Buffers :=
      ⟨#[7, 7, 7, 7], #[6, 6, 6, 6, 6], #[5, 5]⟩
    exactSum a b 1 = 2 ^ 31 ∧
      (∃ data scratch output,
        multiplyReal .two (toeplitz a 2) (column b) real = .done ⟨⟨⟨4, 1⟩, data⟩, scratch⟩ ∧
        Convolution.wrapping .two a b #[7, 7, 7, 7] = .done output ∧
        ∀ n < 4, ∃ sample : Int16, data[n]? = some sample ∧ output[n]? = some sample) ∧
      ∃ data scratch output,
        multiplyComplex .two (toeplitz a 2).embedded (column b).embedded complex =
          .done ⟨⟨⟨4, 1⟩, data⟩, scratch⟩ ∧
        Convolution.saturating .two a b buffers = .done output ∧
        ∀ n < 4, ∃ sample : Int16, data[2 * n]? = some sample ∧ data[2 * n + 1]? = some 0 ∧
          output.destination[n]? = some sample := by
  intro a b real complex buffers
  have hsum : exactSum a b 1 = 2 ^ 31 := by decide
  have hfit : buffers.Fit a b := ⟨by decide, by decide, by decide⟩
  obtain ⟨hreal, hcomplex⟩ :=
    toeplitz_product_eq_convolution .two .two a b (by decide) (by decide) (by decide)
  exact ⟨hsum, hreal real #[7, 7, 7, 7] rfl (by decide) (by decide) (by decide),
    hcomplex complex buffers rfl (by decide) (by decide) hfit⟩

end SignalCore.Matrix
