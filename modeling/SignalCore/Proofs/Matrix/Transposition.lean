import SignalCore.Proofs.Matrix.Ending

/-!
# Products of transposes

The product of two transposes in the opposite order is the transpose of the product.  The two calls
do not look alike: each transposes another factor into its scratch buffer and goes along other rows.
What they have in common is the exact sum of every element, in which the factors of each product
have changed places (`exactElement_mirror`, `exactRe_mirror`, `exactIm_mirror`).  A finished sample
depends on nothing but its sum, so the two results are transposes of each other sample by sample,
also where a sum has wrapped or is held at a rail (`product_of_transposes`).
-/

namespace SignalCore

/-- The dimensions in the opposite order. -/
def Shape.transpose (shape : Shape) : Shape :=
  ⟨shape.cols, shape.rows⟩

lemma Shape.size_transpose (shape : Shape) : shape.transpose.size = shape.size :=
  Nat.mul_comm _ _

namespace Matrix

/-! ## Transposes -/

/-- `mirror` is the transpose of `matrix`, with the samples of an element in their order.  Either of
them may have more samples behind those that its shape needs. -/
structure IsTranspose (width : ℕ) (matrix mirror : Matrix) : Prop where
  shape : mirror.toShape = matrix.toShape.transpose
  fits : width * matrix.size ≤ matrix.data.size
  fits_mirror : width * mirror.size ≤ mirror.data.size
  sample : ∀ r < matrix.rows.toNat, ∀ c < matrix.cols.toNat, ∀ p < width,
    mirror.data[width * (c * mirror.cols.toNat + r) + p]? =
      matrix.data[width * (r * matrix.cols.toNat + c) + p]?

/-- The transpose of a matrix, laid out as a product lays it out in its scratch buffer. -/
def transpose (width : ℕ) (matrix : Matrix) : Matrix where
  toShape := matrix.toShape.transpose
  data := (transposed width matrix.rows.toNat matrix.cols.toNat matrix.data).toArray

lemma isTranspose_transpose {width : ℕ} {matrix : Matrix}
    (hfit : width * matrix.size ≤ matrix.data.size) :
    IsTranspose width matrix (matrix.transpose width) where
  shape := rfl
  fits := hfit
  fits_mirror := by
    rw [transpose, List.size_toArray, length_transposed, Shape.size_transpose, Shape.size]
  sample r hr c hc p hp := by
    have hsource : width * (r * matrix.cols.toNat + c) + p < width * matrix.size :=
      sample_lt (element_lt hr hc) hp
    calc
      (matrix.transpose width).data[width * (c * matrix.rows.toNat + r) + p]? =
          (transposed width matrix.rows.toNat matrix.cols.toNat matrix.data)[
            width * (c * matrix.rows.toNat + r) + p]? := List.getElem?_toArray
      _ = some (matrix.data.getD (width * (r * matrix.cols.toNat + c) + p) 0) :=
        getElem?_transposed hr hc hp
      _ = matrix.data[width * (r * matrix.cols.toNat + c) + p]? :=
        (getElem?_eq_some_getD (hsource.trans_le hfit)).symm

namespace IsTranspose

variable {width : ℕ} {matrix mirror : Matrix}

lemma rows (h : IsTranspose width matrix mirror) : mirror.rows = matrix.cols :=
  congrArg Shape.rows h.shape

lemma cols (h : IsTranspose width matrix mirror) : mirror.cols = matrix.rows :=
  congrArg Shape.cols h.shape

lemma size_eq (h : IsTranspose width matrix mirror) : mirror.size = matrix.size := by
  rw [h.shape, Shape.size_transpose]

lemma valueAt_eq (h : IsTranspose width matrix mirror) {r c p : ℕ} (hr : r < matrix.rows.toNat)
    (hc : c < matrix.cols.toNat) (hp : p < width) :
    valueAt mirror.data (width * (c * mirror.cols.toNat + r) + p) =
      valueAt matrix.data (width * (r * matrix.cols.toNat + c) + p) :=
  valueAt_congr (h.sample r hr c hc p hp)

lemma valueAt_one (h : IsTranspose 1 matrix mirror) {r c : ℕ} (hr : r < matrix.rows.toNat)
    (hc : c < matrix.cols.toNat) :
    valueAt mirror.data (c * mirror.cols.toNat + r) =
      valueAt matrix.data (r * matrix.cols.toNat + c) := by
  simpa only [Nat.one_mul, Nat.add_zero] using h.valueAt_eq hr hc Nat.one_pos

lemma reAt_eq (h : IsTranspose 2 matrix mirror) {r c : ℕ} (hr : r < matrix.rows.toNat)
    (hc : c < matrix.cols.toNat) : mirror.reAt c r = matrix.reAt r c :=
  h.valueAt_eq (p := 0) hr hc (by omega)

lemma imAt_eq (h : IsTranspose 2 matrix mirror) {r c : ℕ} (hr : r < matrix.rows.toNat)
    (hc : c < matrix.cols.toNat) : mirror.imAt c r = matrix.imAt r c :=
  h.valueAt_eq (p := 1) hr hc (by omega)

end IsTranspose

/-! ## Exact sums -/

section Sums

variable {width : ℕ} {left right left' right' : Matrix} {r c : ℕ}

/-- Both products have the same inner dimension. -/
lemma sum_mirror {term term' : ℕ → ℤ} (hright : IsTranspose width right right')
    (hinner : left.cols = right.rows)
    (h : ∀ k, k < left.cols.toNat → k < right.rows.toNat → term' k = term k) :
    ∑ k ∈ Finset.range right'.cols.toNat, term' k = ∑ k ∈ Finset.range left.cols.toNat, term k := by
  rw [hright.cols, ← hinner]
  refine Finset.sum_congr rfl fun k hk => ?_
  have hlt : k < left.cols.toNat := Finset.mem_range.1 hk
  exact h k hlt (by rwa [← hinner])

lemma exactElement_mirror (hleft : IsTranspose 1 left left') (hright : IsTranspose 1 right right')
    (hinner : left.cols = right.rows) (hr : r < left.rows.toNat) (hc : c < right.cols.toNat) :
    exactElement right' left' c r = exactElement left right r c := by
  refine sum_mirror hright hinner fun k hcol hrow => ?_
  rw [hright.valueAt_one hrow hc, hleft.valueAt_one hr hcol, mul_comm]

lemma exactRe_mirror (hleft : IsTranspose 2 left left') (hright : IsTranspose 2 right right')
    (hinner : left.cols = right.rows) (hr : r < left.rows.toNat) (hc : c < right.cols.toNat) :
    exactRe right' left' c r = exactRe left right r c := by
  refine sum_mirror hright hinner fun k hcol hrow => ?_
  rw [hright.reAt_eq hrow hc, hright.imAt_eq hrow hc, hleft.reAt_eq hr hcol,
    hleft.imAt_eq hr hcol, mul_comm, mul_comm (right.imAt k c)]

lemma exactIm_mirror (hleft : IsTranspose 2 left left') (hright : IsTranspose 2 right right')
    (hinner : left.cols = right.rows) (hr : r < left.rows.toNat) (hc : c < right.cols.toNat) :
    exactIm right' left' c r = exactIm left right r c := by
  refine sum_mirror hright hinner fun k hcol hrow => ?_
  rw [hright.reAt_eq hrow hc, hright.imAt_eq hrow hc, hleft.reAt_eq hr hcol,
    hleft.imAt_eq hr hcol]
  ring

end Sums

/-! ## Finished samples -/

/-- Sample `p` of the element at row `r` and column `c` of a product. -/
def Element.productSample (element : Element) (left right : Matrix) (r c p : ℕ) : Int16 :=
  match element with
  | .real => Int16.ofInt (exactElement left right r c / 2 ^ 15)
  | .complex =>
    Q15.saturate ((if p = 0 then exactRe left right r c else exactIm left right r c) / 2 ^ 15)

namespace Element

lemma productSample_mirror {element : Element} {left right left' right' : Matrix}
    (hleft : IsTranspose element.width left left')
    (hright : IsTranspose element.width right right') (hinner : left.cols = right.rows) {r c : ℕ}
    (hr : r < left.rows.toNat) (hc : c < right.cols.toNat) (p : ℕ) :
    element.productSample right' left' c r p = element.productSample left right r c p := by
  cases element with
  | real => rw [productSample, productSample, exactElement_mirror hleft hright hinner hr hc]
  | complex =>
    rw [productSample, productSample, exactRe_mirror hleft hright hinner hr hc,
      exactIm_mirror hleft hright hinner hr hc]

section Call

variable {element : Element} {lanes : Lanes} {left right : Matrix} {buffers : Buffers}

lemma size_data_of_done
    (hshape : Conforms left.toShape right.toShape buffers.destination.toShape)
    (hfit : Fits element.width left right buffers) {data scratch : Array Int16}
    (hdone : element.multiply lanes left right buffers =
      .done ⟨{ buffers.destination with data }, scratch⟩) :
    data.size = buffers.destination.data.size := by
  obtain ⟨samples, transpose, -, -, hproduct⟩ := exists_multiply_of_fits lanes hshape hfit
  rw [hproduct] at hdone
  have hdata : Buffer.overlay samples buffers.destination.data = data :=
    congrArg (fun outcome => outcome.buffers.destination.data) hdone
  rw [← hdata, Buffer.size_overlay]

/-- What a call that conforms and fits leaves in the destination, sample by sample. -/
lemma exists_product (element : Element) (lanes : Lanes)
    (hshape : Conforms left.toShape right.toShape buffers.destination.toShape)
    (hfit : Fits element.width left right buffers) :
    ∃ data scratch, element.multiply lanes left right buffers =
        .done ⟨{ buffers.destination with data }, scratch⟩ ∧
      data.size = buffers.destination.data.size ∧
      ∀ r < left.rows.toNat, ∀ c < right.cols.toNat, ∀ p < element.width,
        data[element.width * (r * right.cols.toNat + c) + p]? =
          some (element.productSample left right r c p) := by
  cases element with
  | real =>
    obtain ⟨data, scratch, hdone, hsamples⟩ := exists_realProduct lanes hshape hfit
    refine ⟨data, scratch, hdone, size_data_of_done hshape hfit hdone, ?_⟩
    intro r hr c hc p hp
    obtain rfl : p = 0 := Nat.lt_one_iff.1 hp
    rw [width, Nat.one_mul, Nat.add_zero]
    exact hsamples r hr c hc
  | complex =>
    obtain ⟨data, scratch, hdone, hparts⟩ := exists_complexProduct lanes hshape hfit
    refine ⟨data, scratch, hdone, size_data_of_done hshape hfit hdone, ?_⟩
    intro r hr c hc p hp
    obtain ⟨hre, him⟩ := hparts r hr c hc
    obtain rfl | rfl : p = 0 ∨ p = 1 := by
      have hwidth : complex.width = 2 := rfl
      omega
    · exact hre
    · exact him

end Call

end Element

/-! ## Both products -/

lemma Conforms.transpose {left right destination : Shape} (h : Conforms left right destination) :
    Conforms right.transpose left.transpose destination.transpose :=
  ⟨h.1.symm, h.2.2, h.2.1⟩

/-- **The product of the transposes is the transpose of the product.**  Take factors whose shapes
conform, transposes of both, and long enough buffers for the call on the factors and for the call on
the transposes in the opposite order, whatever they hold.  Both calls succeed, in whatever widths
they run, and one leaves the transpose of what the other leaves: sample by sample, with the parts of
a complex element in their order, and also where samples have wrapped or are held at the rails. -/
theorem product_of_transposes (element : Element) (lanes lanes' : Lanes)
    (left right left' right' : Matrix) (buffers mirrored : Buffers)
    (hshape : Conforms left.toShape right.toShape buffers.destination.toShape)
    (hleft : IsTranspose element.width left left')
    (hright : IsTranspose element.width right right')
    (hmirrored : mirrored.destination.toShape = buffers.destination.toShape.transpose)
    (hdata : element.width * buffers.destination.size ≤ buffers.destination.data.size)
    (hscratch : element.width * right.size ≤ buffers.scratch.size)
    (hmirroredData : element.width * mirrored.destination.size ≤ mirrored.destination.data.size)
    (hmirroredScratch : element.width * left.size ≤ mirrored.scratch.size) :
    ∃ data scratch data' scratch',
      element.multiply lanes left right buffers =
        .done ⟨{ buffers.destination with data }, scratch⟩ ∧
      element.multiply lanes' right' left' mirrored =
        .done ⟨{ mirrored.destination with data := data' }, scratch'⟩ ∧
      IsTranspose element.width { buffers.destination with data }
        { mirrored.destination with data := data' } := by
  obtain ⟨hinner, hrows, hcols⟩ := hshape
  have hshape' : Conforms right'.toShape left'.toShape mirrored.destination.toShape := by
    rw [hright.shape, hleft.shape, hmirrored]
    exact Conforms.transpose ⟨hinner, hrows, hcols⟩
  have hfit : Fits element.width left right buffers := by
    refine ⟨hleft.fits, hright.fits, ?_, hscratch⟩
    rw [hrows, hcols]
    exact hdata
  have hfit' : Fits element.width right' left' mirrored := by
    refine ⟨hright.fits_mirror, hleft.fits_mirror, ?_, ?_⟩
    · rw [hshape'.2.1, hshape'.2.2]
      exact hmirroredData
    · rw [hleft.size_eq]
      exact hmirroredScratch
  obtain ⟨data, scratch, hdone, hsize, hsamples⟩ :=
    element.exists_product lanes ⟨hinner, hrows, hcols⟩ hfit
  obtain ⟨data', scratch', hdone', hsize', hsamples'⟩ :=
    element.exists_product lanes' hshape' hfit'
  refine ⟨data, scratch, data', scratch', hdone, hdone', hmirrored, ?_, ?_, ?_⟩
  · exact hdata.trans_eq hsize.symm
  · exact hmirroredData.trans_eq hsize'.symm
  · intro r hr c hc p hp
    have hrow : r < left.rows.toNat := by rwa [hrows]
    have hcol : c < right.cols.toNat := by rwa [hcols]
    have hread := hsamples r hrow c hcol p hp
    have hread' := hsamples' c (by rwa [hright.rows]) r (by rwa [hleft.cols]) p hp
    rw [Element.productSample_mirror hleft hright hinner hrow hcol, hshape'.2.2] at hread'
    rw [hcols] at hread
    exact hread'.trans hread.symm

/-- A column of two complex elements times a row of three.  One part off the diagonal is held at the
upper rail, and the product of the transposes has it at the opposite place. -/
theorem product_of_transposes_off_diagonal :
    let left : Matrix := ⟨⟨2, 1⟩, #[-32768, 0, 0, -32768]⟩
    let right : Matrix := ⟨⟨1, 3⟩, #[-32768, 0, 16384, 8192, 5, 7]⟩
    Element.complex.multiply .two left right ⟨⟨⟨2, 3⟩, Array.replicate 12 9⟩, Array.replicate 6 9⟩ =
        .done ⟨⟨⟨2, 3⟩, #[32767, 0, -16384, -8192, -5, -7, 0, 32767, 8192, -16384, 7, -5]⟩,
          #[-32768, 0, 16384, 8192, 5, 7]⟩ ∧
      ∃ data scratch,
        Element.complex.multiply .one (right.transpose 2) (left.transpose 2)
            ⟨⟨⟨3, 2⟩, Array.replicate 13 8⟩, Array.replicate 4 8⟩ =
          .done ⟨⟨⟨3, 2⟩, data⟩, scratch⟩ ∧
        data[3]? = some (32767 : Int16) ∧ data[8]? = some (-5 : Int16) := by
  intro left right
  have hcall : Element.complex.multiply .two left right
      ⟨⟨⟨2, 3⟩, Array.replicate 12 9⟩, Array.replicate 6 9⟩ =
        .done ⟨⟨⟨2, 3⟩, #[32767, 0, -16384, -8192, -5, -7, 0, 32767, 8192, -16384, 7, -5]⟩,
          #[-32768, 0, 16384, 8192, 5, 7]⟩ := by decide +kernel
  obtain ⟨data, scratch, data', scratch', hdone, hdone', hmirror⟩ :=
    product_of_transposes .complex .two .one left right (left.transpose 2) (right.transpose 2)
      ⟨⟨⟨2, 3⟩, Array.replicate 12 9⟩, Array.replicate 6 9⟩
      ⟨⟨⟨3, 2⟩, Array.replicate 13 8⟩, Array.replicate 4 8⟩ ⟨rfl, rfl, rfl⟩
      (isTranspose_transpose (by decide)) (isTranspose_transpose (by decide)) rfl
      (by decide) (by decide) (by decide) (by decide)
  rw [hcall] at hdone
  obtain rfl : #[32767, 0, -16384, -8192, -5, -7, 0, 32767, 8192, -16384, 7, -5] = data :=
    congrArg (fun outcome => outcome.buffers.destination.data) hdone
  exact ⟨hcall, data', scratch', hdone',
    hmirror.sample 1 (by decide) 0 (by decide) 1 (by decide),
    hmirror.sample 0 (by decide) 2 (by decide) 0 (by decide)⟩

end Matrix

end SignalCore
