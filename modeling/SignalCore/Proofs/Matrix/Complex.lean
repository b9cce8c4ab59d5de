import SignalCore.Proofs.Fixed.Finish
import SignalCore.Proofs.Matrix.ComplexDot
import SignalCore.Proofs.Matrix.Layout

/-!
# The product of complex matrices

The loops write both samples of an element in one step.  The first gets to every place of the
transpose (`transposePairs?_eq_some`), the second to every place of the product
(`complexProduct?_eq_some`), and what it writes there is made of the complex dot product of two
rows.  No slice, read or store leaves its run.

The rows that meet in an element of the product are a row of the left factor and, through the
transpose, a column of the right one, so `multiplyComplex_is_clamped_product` says that the two
parts of the element are those of the exact complex product, held at the rails.
-/

namespace SignalCore.Matrix

open Accumulator Buffer

/-! ## The loop of the transpose -/

/-- A position of a buffer of pairs is that of one of their two samples. -/
lemma exists_pair_position {elements i : ℕ} (hi : i < 2 * elements) :
    ∃ k < elements, i = 2 * k ∨ i = 2 * k + 1 :=
  ⟨i / 2, by omega, by omega⟩

/-- The element at row `r` and column `c` goes to row `c` and column `r`. -/
lemma fills_copyPair {rows cols r c : ℕ} {source : Array Int16}
    (hsource : source.size = 2 * (rows * cols)) (hr : r < rows) (hc : c < cols) :
    Fills (transposed 2 rows cols source).toArray
      (fun i => i = 2 * (c * rows + r) ∨ i = 2 * (c * rows + r) + 1) fun target =>
        copyPair? source (2 * (r * cols + c)) target (2 * (c * rows + r)) := by
  have hlt := element_lt hr hc
  simp only [copyPair?]
  rw [getElem?_eq_some_getD (by omega), getElem?_eq_some_getD (by omega)]
  refine Fills.bind (Fills.write ?_) (Fills.write ?_)
  · rw [List.getElem?_toArray]
    exact getElem?_transposed (p := 0) hr hc (by decide)
  · rw [List.getElem?_toArray]
    exact getElem?_transposed (p := 1) hr hc (by decide)

/-- The loop leaves the transpose of its source, whatever its target held. -/
lemma transposePairs?_eq_some {rows cols : ℕ} {source target : Array Int16}
    (hsource : source.size = 2 * (rows * cols)) (htarget : target.size = 2 * (rows * cols)) :
    transposePairs? rows cols source target = some (transposed 2 rows cols source).toArray := by
  have hsize : (transposed 2 rows cols source).toArray.size = 2 * (rows * cols) := by simp
  refine (Fills.foldlM_range fun r hr => Fills.foldlM_range fun c hc =>
    fills_copyPair hsource hr hc).eq_some (fun i hi => ?_) (htarget.trans hsize.symm)
  obtain ⟨k, hk, hi⟩ := exists_pair_position (hi.trans_eq hsize)
  obtain ⟨c, hc, r, hr, rfl⟩ := exists_position (by rwa [Nat.mul_comm] at hk)
  exact ⟨r, hr, c, hc, hi⟩

lemma sameElement_transposed {rows cols r c : ℕ} (data : Array Int16) (hr : r < rows)
    (hc : c < cols) :
    SameElement (transposed 2 rows cols data).toArray (c * rows + r) data (r * cols + c) :=
  ⟨valueAt_transposed (p := 0) hr hc (by omega), valueAt_transposed (p := 1) hr hc (by omega)⟩

/-! ## The parts of sums, side by side -/

section Parts

variable {A B : Type}

/-- What is written for a sum, the real part first. -/
def ComplexSum.parts (finish : A → B) (sum : ComplexSum A) : List B :=
  [finish sum.re, finish sum.im]

/-- A run with the parts of every sum holds those of sum `i` at `2 * i` and behind it. -/
lemma getElem?_flatMap_parts (finish : A → B) (sums : List (ComplexSum A)) (i : ℕ) :
    (sums.flatMap (ComplexSum.parts finish))[2 * i]? = sums[i]?.map (finish ·.re) ∧
      (sums.flatMap (ComplexSum.parts finish))[2 * i + 1]? = sums[i]?.map (finish ·.im) :=
  getElem?_flatMap_pair _ _ sums i

lemma length_flatMap_parts (finish : A → B) (sums : List (ComplexSum A)) :
    (sums.flatMap (ComplexSum.parts finish)).length = 2 * sums.length :=
  length_flatMap_pair _ _ sums

end Parts

section Loops

variable {A B : Type} [Accumulator A]

/-! ## The sums of a product -/

/-- The real part of the sum for the element at `row` and `col`, over a row of the left run and a
row of the transpose. -/
def elementRe (inner : ℕ) (left transposed : Array Int16) (row col : ℕ) : ℤ :=
  ∑ k ∈ Finset.range inner, reProduct left transposed (row * inner + k) (col * inner + k)

/-- The imaginary part of the sum for the element at `row` and `col`. -/
def elementIm (inner : ℕ) (left transposed : Array Int16) (row col : ℕ) : ℤ :=
  ∑ k ∈ Finset.range inner, imProduct left transposed (row * inner + k) (col * inner + k)

/-- Row `row` of a run whose rows have `inner` elements. -/
def complexRow (inner : ℕ) (run : Array Int16) (row : ℕ) : Array Int16 :=
  run.extract (2 * (row * inner)) (2 * (row * inner) + 2 * inner)

/-- A sum over two rows cut out of their runs is the sum over the runs. -/
lemma sum_complexRow {product : Array Int16 → Array Int16 → ℕ → ℕ → ℤ}
    (hproduct : OfElements product) (inner : ℕ) (left transposed : Array Int16) (row col : ℕ) :
    ∑ k ∈ Finset.range inner,
        product (complexRow inner left row) (complexRow inner transposed col) k k =
      ∑ k ∈ Finset.range inner, product left transposed (row * inner + k) (col * inner + k) := by
  refine Finset.sum_congr rfl fun k hk => ?_
  have hlt : k < inner := Finset.mem_range.1 hk
  exact hproduct (sameElement_extract left (row * inner) hlt)
    (sameElement_extract transposed (col * inner) hlt)

/-- The total of two rows is the cast of their exact sum. -/
lemma complexTotal_complexRow [Lawful A] (lanes : Lanes) (inner : ℕ)
    (left transposed : Array Int16) (row col : ℕ) :
    complexTotal lanes inner (complexRow inner left row) (complexRow inner transposed col) =
      { re := (Lawful.cast (elementRe inner left transposed row col) : A)
        im := Lawful.cast (elementIm inner left transposed row col) } := by
  rw [complexTotal_eq_cast, sum_complexRow ofElements_reProduct,
    sum_complexRow ofElements_imProduct, elementRe, elementIm]

lemma complexElementSum?_eq_some (lanes : Lanes) {inner row col : ℕ}
    {left transposed : Array Int16} (hleft : 2 * (row * inner) + 2 * inner ≤ left.size)
    (htransposed : 2 * (col * inner) + 2 * inner ≤ transposed.size) :
    complexElementSum? lanes inner left transposed row col =
      some (complexTotal lanes inner (complexRow inner left row)
        (complexRow inner transposed col) : ComplexSum A) := by
  rw [complexElementSum?, Buffer.slice?_eq_some hleft, Buffer.slice?_eq_some htransposed]
  simp only [Option.bind_eq_bind, Option.bind_some]
  exact complexDot?_eq_some lanes (by rw [Array.size_extract]; omega)
    (by rw [Array.size_extract]; omega)

/-! ## The loop of the product -/

/-- The sums for all elements of a product, row by row. -/
def complexTotals (lanes : Lanes) (rows inner cols : ℕ) (left transposed : Array Int16) :
    List (ComplexSum A) :=
  (List.range' 0 (rows * cols)).map fun i =>
    complexTotal lanes inner (complexRow inner left (i / cols))
      (complexRow inner transposed (i % cols))

lemma getElem?_complexTotals (lanes : Lanes) {rows inner cols : ℕ} (left transposed : Array Int16)
    {i : ℕ} (hi : i < rows * cols) :
    (complexTotals lanes rows inner cols left transposed : List (ComplexSum A))[i]? =
      some (complexTotal lanes inner (complexRow inner left (i / cols))
        (complexRow inner transposed (i % cols))) := by
  simp [complexTotals, List.getElem?_range' hi]

/-- What the loop is to leave, two samples for each sum. -/
def finishedParts (lanes : Lanes) (finish : A → B) (rows inner cols : ℕ)
    (left transposed : Array Int16) : Array B :=
  ((complexTotals lanes rows inner cols left transposed).flatMap (ComplexSum.parts finish)).toArray

@[simp]
lemma size_finishedParts (lanes : Lanes) (finish : A → B) (rows inner cols : ℕ)
    (left transposed : Array Int16) :
    (finishedParts lanes finish rows inner cols left transposed).size = 2 * (rows * cols) := by
  rw [finishedParts, List.size_toArray, length_flatMap_parts]
  simp [complexTotals]

/-- Sum `i` gives the samples at `2 * i` and behind it. -/
lemma fills_complexElement (lanes : Lanes) (finish : A → B) {rows inner cols i : ℕ}
    {left transposed : Array Int16} (hleft : left.size = 2 * (rows * inner))
    (htransposed : transposed.size = 2 * (cols * inner)) (hi : i < rows * cols) :
    Fills (finishedParts lanes finish rows inner cols left transposed)
      (fun place => place = 2 * i ∨ place = 2 * i + 1) fun target =>
        complexElement? lanes finish inner cols left transposed target i := by
  obtain ⟨hrow, hcol⟩ := row_lt_and_col_lt hi
  have hleftRow := row_le 2 inner hrow
  have hrightRow := row_le 2 inner hcol
  obtain ⟨hre, him⟩ := getElem?_flatMap_parts finish
    (complexTotals lanes rows inner cols left transposed : List (ComplexSum A)) i
  rw [getElem?_complexTotals lanes left transposed hi] at hre him
  simp only [complexElement?]
  rw [complexElementSum?_eq_some lanes (by omega) (by omega)]
  apply Fills.bind
  · apply Fills.write
    simpa [finishedParts] using hre
  · apply Fills.write
    simpa [finishedParts] using him

/-- The loop leaves the finished parts of the sums, whatever its target held. -/
theorem complexProduct?_eq_some (lanes : Lanes) (finish : A → B) {rows inner cols : ℕ}
    {left transposed : Array Int16} {target : Array B} (hleft : left.size = 2 * (rows * inner))
    (htransposed : transposed.size = 2 * (cols * inner))
    (htarget : target.size = 2 * (rows * cols)) :
    complexProduct? lanes finish inner cols left transposed target =
      some (finishedParts lanes finish rows inner cols left transposed) := by
  have hsize := size_finishedParts lanes finish rows inner cols left transposed
  rw [complexProduct?, htarget, Nat.mul_div_cancel_left _ (by decide)]
  exact (Fills.foldlM_range fun i hi =>
    fills_complexElement lanes finish hleft htransposed hi).eq_some
      (fun i hi => exists_pair_position (hi.trans_eq hsize)) (htarget.trans hsize.symm)

end Loops

/-! ## The exact product -/

/-- The real part of the element at row `r` and column `c`. -/
def reAt (m : Matrix) (r c : ℕ) : ℤ :=
  valueAt m.data (2 * (r * m.cols.toNat + c))

/-- The imaginary part of the element at row `r` and column `c`. -/
def imAt (m : Matrix) (r c : ℕ) : ℤ :=
  valueAt m.data (2 * (r * m.cols.toNat + c) + 1)

/-- The real part of an element of the exact product. -/
def exactRe (left right : Matrix) (r c : ℕ) : ℤ :=
  ∑ k ∈ Finset.range left.cols.toNat,
    (left.reAt r k * right.reAt k c - left.imAt r k * right.imAt k c)

/-- The imaginary part of an element of the exact product. -/
def exactIm (left right : Matrix) (r c : ℕ) : ℤ :=
  ∑ k ∈ Finset.range left.cols.toNat,
    (left.reAt r k * right.imAt k c + left.imAt r k * right.reAt k c)

/-- A row of the transpose meets a row of the left factor as the column of the right factor does. -/
lemma sum_transposed {product : Array Int16 → Array Int16 → ℕ → ℕ → ℤ}
    (hproduct : OfElements product) {left right : Matrix} (hinner : left.cols = right.rows)
    {r c : ℕ} (hr : r < left.rows.toNat) (hc : c < right.cols.toNat) :
    ∑ k ∈ Finset.range left.cols.toNat,
        product (left.data.extract 0 (2 * left.size))
          (transposed 2 right.rows.toNat right.cols.toNat right.data).toArray
          (r * left.cols.toNat + k) (c * left.cols.toNat + k) =
      ∑ k ∈ Finset.range left.cols.toNat,
        product left.data right.data (r * left.cols.toNat + k) (k * right.cols.toNat + c) := by
  rw [← hinner]
  refine Finset.sum_congr rfl fun k hk => ?_
  have hlt : k < left.cols.toNat := Finset.mem_range.1 hk
  exact hproduct (sameElement_extract_zero left.data (element_lt hr hlt))
    (sameElement_transposed right.data hlt hc)

lemma abs_exactRe_le (left right : Matrix) (r c : ℕ) :
    |exactRe left right r c| ≤ left.cols.toNat * 2 ^ 31 := by
  have h := abs_sum_le_card_mul fun k (_ : k ∈ Finset.range left.cols.toNat) =>
    abs_reProduct_le left.data right.data (r * left.cols.toNat + k) (k * right.cols.toNat + c)
  rwa [Finset.card_range] at h

lemma abs_exactIm_le (left right : Matrix) (r c : ℕ) :
    |exactIm left right r c| ≤ left.cols.toNat * 2 ^ 31 := by
  have h := abs_sum_le_card_mul fun k (_ : k ∈ Finset.range left.cols.toNat) =>
    abs_imProduct_le left.data right.data (r * left.cols.toNat + k) (k * right.cols.toNat + c)
  rwa [Finset.card_range] at h

/-- Sixteen bits of columns leave a 64-bit sum far from its ends. -/
lemma finishSaturating_of_abs_le {sum : ℤ} {inner : UInt16} (h : |sum| ≤ inner.toNat * 2 ^ 31) :
    Q15.finishSaturating (Int64.ofInt sum) = Q15.saturate (sum / 2 ^ 15) := by
  obtain ⟨hlow, hhigh⟩ := abs_le.1 h
  have hinner : (inner.toNat : ℤ) < 2 ^ 16 := by exact_mod_cast inner.toNat_lt
  exact Q15.finishSaturating_ofInt (by omega) (by omega)

/-! ## The kernel -/

/-- The sums that the loops of a complex product come to. -/
def complexSums (left right : Matrix) : List (ComplexSum Int64) :=
  (List.range' 0 (left.rows.toNat * right.cols.toNat)).map fun i =>
    { re := Int64.ofInt (exactRe left right (i / right.cols.toNat) (i % right.cols.toNat))
      im := Int64.ofInt (exactIm left right (i / right.cols.toNat) (i % right.cols.toNat)) }

/-- The total for the element at row `r` and column `c`: a row of the left factor's run and a row
of the transpose. -/
def complexElementTotal {A : Type} [Accumulator A] (lanes : Lanes) (left right : Matrix)
    (r c : ℕ) : ComplexSum A :=
  complexTotal lanes left.cols.toNat
    (complexRow left.cols.toNat (left.data.extract 0 (2 * left.size)) r)
    (complexRow left.cols.toNat
      (transposed 2 right.rows.toNat right.cols.toNat right.data).toArray c)

/-- On factors that conform and fit, the loop of the product writes all its sums. -/
lemma complexProduct?_of_fits {A B : Type} [Accumulator A] (lanes : Lanes) (finish : A → B)
    {left right : Matrix} {buffers : Buffers} (hinner : left.cols = right.rows)
    (hfit : Fits 2 left right buffers) {target : Array B}
    (htarget : target.size = 2 * (left.rows.toNat * right.cols.toNat)) :
    complexProduct? lanes finish left.cols.toNat right.cols.toNat
        (left.data.extract 0 (2 * left.size))
        (transposed 2 right.rows.toNat right.cols.toNat right.data).toArray target =
      some (((List.range' 0 (left.rows.toNat * right.cols.toNat)).map fun i =>
        complexElementTotal lanes left right (i / right.cols.toNat)
          (i % right.cols.toNat)).flatMap (ComplexSum.parts finish)).toArray :=
  complexProduct?_eq_some lanes finish (size_leftRun hfit) (by simp [hinner, Nat.mul_comm]) htarget

/-- On factors that fit, the loop of the transpose writes all its samples. -/
lemma transposePairs?_of_fits {left right : Matrix} {buffers : Buffers}
    (hfit : Fits 2 left right buffers) {target : Array Int16}
    (htarget : target.size = 2 * right.size) :
    transposePairs? right.rows.toNat right.cols.toNat (right.data.extract 0 (2 * right.size))
        target =
      some (transposed 2 right.rows.toNat right.cols.toNat right.data).toArray := by
  rw [transposePairs?_eq_some (size_rightRun hfit) htarget]
  exact congrArg (some ·.toArray) (transposed_extract hfit.2.1)

/-- The total for an element stands for the element of the exact product. -/
lemma complexElementTotal_eq_cast {A : Type} [Accumulator A] [Lawful A] (lanes : Lanes)
    {left right : Matrix} (hinner : left.cols = right.rows) {r c : ℕ} (hr : r < left.rows.toNat)
    (hc : c < right.cols.toNat) :
    complexElementTotal lanes left right r c =
      { re := (Lawful.cast (exactRe left right r c) : A)
        im := Lawful.cast (exactIm left right r c) } := by
  rw [complexElementTotal, complexTotal_complexRow, elementRe, elementIm,
    sum_transposed ofElements_reProduct hinner hr hc,
    sum_transposed ofElements_imProduct hinner hr hc]
  rfl

/-- The samples of the product, element by element. -/
def complexSamples (left right : Matrix) : Array Int16 :=
  ((complexSums left right).flatMap (ComplexSum.parts Q15.finishSaturating)).toArray

/-- In either width the loop of the product, run on factors that conform and fit, leaves these
samples. -/
lemma complexProduct?_eq_complexSamples (lanes : Lanes) {left right : Matrix} {buffers : Buffers}
    (hinner : left.cols = right.rows) (hfit : Fits 2 left right buffers) :
    complexProduct? lanes Q15.finishSaturating left.cols.toNat right.cols.toNat
        (left.data.extract 0 (2 * left.size))
        (transposed 2 right.rows.toNat right.cols.toNat right.data).toArray
        (buffers.destination.data.extract 0 (2 * (left.rows.toNat * right.cols.toNat))) =
      some (complexSamples left right) := by
  rw [complexProduct?_of_fits lanes _ hinner hfit (size_resultRun hfit), complexSamples,
    complexSums]
  refine congrArg (some <| List.toArray <| List.flatMap _ ·) (List.map_congr_left fun i hi => ?_)
  rw [List.mem_range'_1] at hi
  obtain ⟨hrow, hcol⟩ := row_lt_and_col_lt (by simpa using hi.2)
  exact complexElementTotal_eq_cast lanes hinner hrow hcol

lemma size_complexSamples (left right : Matrix) :
    (complexSamples left right).size = 2 * (left.rows.toNat * right.cols.toNat) := by
  rw [complexSamples, List.size_toArray, length_flatMap_parts, complexSums, List.length_map,
    List.length_range']

/-- Both parts of an element are those of the exact sum without its fraction bits, held at the
rails. -/
lemma getElem?_complexSamples {left right : Matrix} {r c : ℕ} (hr : r < left.rows.toNat)
    (hc : c < right.cols.toNat) :
    (complexSamples left right)[2 * (r * right.cols.toNat + c)]? =
        some (Q15.saturate (exactRe left right r c / 2 ^ 15)) ∧
      (complexSamples left right)[2 * (r * right.cols.toNat + c) + 1]? =
        some (Q15.saturate (exactIm left right r c / 2 ^ 15)) := by
  have hsum : (complexSums left right)[r * right.cols.toNat + c]? =
      some ⟨Int64.ofInt (exactRe left right r c), Int64.ofInt (exactIm left right r c)⟩ :=
    getElem?_map_elements
      (fun r c => (⟨Int64.ofInt (exactRe left right r c), Int64.ofInt (exactIm left right r c)⟩ :
        ComplexSum Int64)) hr hc
  obtain ⟨hre, him⟩ := getElem?_flatMap_parts Q15.finishSaturating (complexSums left right)
    (r * right.cols.toNat + c)
  rw [hsum, Option.map_some] at hre him
  rw [finishSaturating_of_abs_le (abs_exactRe_le left right r c)] at hre
  rw [finishSaturating_of_abs_le (abs_exactIm_le left right r c)] at him
  exact ⟨by simpa [complexSamples] using hre, by simpa [complexSamples] using him⟩

/-- The call in either width, for shapes that conform and buffers that are long enough. -/
theorem multiplyComplex_of_fits (lanes : Lanes) {left right : Matrix} {buffers : Buffers}
    (hshape : Conforms left.toShape right.toShape buffers.destination.toShape)
    (hfit : Fits 2 left right buffers) :
    multiplyComplex lanes left right buffers =
      .done
        ⟨{ buffers.destination with
            data := Buffer.overlay (complexSamples left right) buffers.destination.data },
          Buffer.overlay (transposed 2 right.rows.toNat right.cols.toNat right.data).toArray
            buffers.scratch⟩ :=
  multiplyBy_of_fits hshape hfit (transposePairs?_of_fits hfit (size_transposeRun hfit))
    (complexProduct?_eq_complexSamples lanes hshape.1 hfit)

/-- What a call that conforms and fits leaves in the destination, element by element. -/
lemma exists_complexProduct (lanes : Lanes) {left right : Matrix} {buffers : Buffers}
    (hshape : Conforms left.toShape right.toShape buffers.destination.toShape)
    (hfit : Fits 2 left right buffers) :
    ∃ data scratch, multiplyComplex lanes left right buffers =
        .done ⟨{ buffers.destination with data }, scratch⟩ ∧
      ∀ r < left.rows.toNat, ∀ c < right.cols.toNat,
        data[2 * (r * right.cols.toNat + c)]? =
            some (Q15.saturate (exactRe left right r c / 2 ^ 15)) ∧
          data[2 * (r * right.cols.toNat + c) + 1]? =
            some (Q15.saturate (exactIm left right r c / 2 ^ 15)) := by
  refine ⟨_, _, multiplyComplex_of_fits lanes hshape hfit, ?_⟩
  intro r hr c hc
  have hlt := element_lt hr hc
  have hsize := size_complexSamples left right
  have hdestination := hfit.2.2.1
  obtain ⟨hre, him⟩ := getElem?_complexSamples hr hc
  constructor
  · rw [Buffer.getElem?_overlay_of_lt (by omega) (by omega), hre]
  · rw [Buffer.getElem?_overlay_of_lt (by omega) (by omega), him]

theorem multiplyComplex_lanes (lanes lanes' : Lanes) (left right : Matrix) (buffers : Buffers) :
    multiplyComplex lanes left right buffers = multiplyComplex lanes' left right buffers :=
  multiplyBy_congr fun hshape hfit =>
    (multiplyComplex_of_fits lanes hshape hfit).trans
      (multiplyComplex_of_fits lanes' hshape hfit).symm

/-- **The complex product.**  For shapes that conform and buffers that are long enough, whatever
they held, both parts of every element of the destination are those of the exact product without
their fraction bits, held at the rails, and the scratch buffer starts with the transpose of the
right factor. -/
theorem multiplyComplex_is_clamped_product (lanes : Lanes) (left right : Matrix)
    (buffers : Buffers) (hinner : left.cols = right.rows)
    (hrows : left.rows = buffers.destination.rows) (hcols : right.cols = buffers.destination.cols)
    (hleft : 2 * (left.rows.toNat * left.cols.toNat) ≤ left.data.size)
    (hright : 2 * (right.rows.toNat * right.cols.toNat) ≤ right.data.size)
    (hdestination : 2 * (left.rows.toNat * right.cols.toNat) ≤ buffers.destination.data.size)
    (hscratch : 2 * (right.rows.toNat * right.cols.toNat) ≤ buffers.scratch.size) :
    ∃ data scratch, multiplyComplex lanes left right buffers =
        .done ⟨{ buffers.destination with data }, scratch⟩ ∧
      (∀ r < left.rows.toNat, ∀ c < right.cols.toNat, ∃ re im : Int16,
        data[2 * (r * right.cols.toNat + c)]? = some re ∧
        data[2 * (r * right.cols.toNat + c) + 1]? = some im ∧
        re.toInt = max (-32768) (min (exactRe left right r c / 2 ^ 15) 32767) ∧
        im.toInt = max (-32768) (min (exactIm left right r c / 2 ^ 15) 32767)) ∧
      (∀ r < right.rows.toNat, ∀ c < right.cols.toNat, ∀ p < 2,
        scratch[2 * (c * right.rows.toNat + r) + p]? =
          right.data[2 * (r * right.cols.toNat + c) + p]?) := by
  have hsize := size_complexSamples left right
  refine ⟨_, _, multiplyComplex_of_fits lanes ⟨hinner, hrows, hcols⟩
    ⟨hleft, hright, hdestination, hscratch⟩, ?_, ?_⟩
  · intro r hr c hc
    have hlt := element_lt hr hc
    obtain ⟨hre, him⟩ := getElem?_complexSamples hr hc
    refine ⟨_, _, ?_, ?_, Q15.toInt_saturate _, Q15.toInt_saturate _⟩
    · rw [Buffer.getElem?_overlay_of_lt (by omega) (by omega), hre]
    · rw [Buffer.getElem?_overlay_of_lt (by omega) (by omega), him]
  · intro r hr c hc p hp
    have hsource := sample_lt (element_lt hr hc) hp
    have htarget := sample_lt (element_lt hc hr) hp
    rw [Nat.mul_comm right.cols.toNat] at htarget
    rw [Buffer.getElem?_overlay_of_lt (by simpa using hscratch) (by simpa using htarget),
      List.getElem?_toArray, getElem?_transposed hr hc hp, getElem?_eq_some_getD (by omega)]

/-- One row times one column, with a real part past the upper rail and an imaginary part below
the lower one. -/
theorem multiplyComplex_is_clamped_product_at_rails :
    ∃ data scratch, multiplyComplex .two ⟨⟨1, 2⟩, #[-32768, 0, -32768, 0]⟩
        ⟨⟨2, 1⟩, #[-32768, 32767, 0, 32767]⟩ ⟨⟨⟨1, 1⟩, #[9, 9, 7]⟩, #[8, 8, 8, 8, 8]⟩ =
          .done ⟨⟨⟨1, 1⟩, data⟩, scratch⟩ ∧
      data[0]? = some (32767 : Int16) ∧ data[1]? = some (-32768 : Int16) ∧
      scratch[3]? = some (32767 : Int16) := by
  obtain ⟨data, scratch, hdone, hsample, htranspose⟩ :=
    multiplyComplex_is_clamped_product .two ⟨⟨1, 2⟩, #[-32768, 0, -32768, 0]⟩
      ⟨⟨2, 1⟩, #[-32768, 32767, 0, 32767]⟩ ⟨⟨⟨1, 1⟩, #[9, 9, 7]⟩, #[8, 8, 8, 8, 8]⟩
      rfl rfl rfl (by decide) (by decide) (by decide) (by decide)
  obtain ⟨re, im, hre, him, hreValue, himValue⟩ := hsample 0 (by decide) 0 (by decide)
  have hreRail : re = 32767 := by
    rw [← Int16.toInt_inj, hreValue]
    decide
  have himRail : im = -32768 := by
    rw [← Int16.toInt_inj, himValue]
    decide
  exact ⟨data, scratch, hdone, by simpa [hreRail] using hre, by simpa [himRail] using him,
    by simpa using htranspose 1 (by decide) 0 (by decide) 1 (by decide)⟩

end SignalCore.Matrix
