import SignalCore.Matrix.Real
import SignalCore.Proofs.Fixed.DotProduct
import SignalCore.Proofs.Fixed.Finish
import SignalCore.Proofs.Matrix.Layout

/-!
# The product of real matrices

Both loops are followed store by store.  The first gets to every place of the transpose
(`transpose?_eq_some`), the second to every place of the product (`realProduct?_eq_some`), and what
it writes there is made of the sum of the products of a row of the left factor with a row of the
transpose, in either width and in any accumulator.  No chunk, read or store leaves its run.

A row of the transpose is a column of the right factor, so the sum is the one that stands for an
element of the exact product (`realElementTotal_eq_cast`).  `multiplyReal_is_product_mod` says what
is kept of it: the low sixteen bits without the fraction, whether or not the 32-bit sum wrapped.
-/

namespace SignalCore.Matrix

open Accumulator Buffer

/-! ## The transpose of single samples -/

lemma valueAt_transposed_one {rows cols r c : ℕ} (data : Array Int16) (hr : r < rows)
    (hc : c < cols) :
    valueAt (transposed 1 rows cols data).toArray (c * rows + r) = valueAt data (r * cols + c) := by
  have h : valueAt (transposed 1 rows cols data).toArray (1 * (c * rows + r) + 0) =
      valueAt data (1 * (r * cols + c) + 0) := valueAt_transposed hr hc Nat.one_pos
  simpa only [Nat.one_mul, Nat.add_zero] using h

lemma getElem?_transposed_one {rows cols r c : ℕ} (data : Array Int16) (hr : r < rows)
    (hc : c < cols) :
    (transposed 1 rows cols data)[c * rows + r]? = some (data.getD (r * cols + c) 0) := by
  have h : (transposed 1 rows cols data)[1 * (c * rows + r) + 0]? =
      some (data.getD (1 * (r * cols + c) + 0) 0) := getElem?_transposed hr hc Nat.one_pos
  simpa only [Nat.one_mul, Nat.add_zero] using h

/-! ## The loop of the transpose -/

lemma zipIdx_map_range {α : Type} (f : ℕ → α) (n : ℕ) :
    ((List.range n).map f).zipIdx = (List.range n).map fun i => (f i, i) := by
  apply List.ext_getElem?
  intro i
  by_cases hi : i < n <;> simp [hi]

/-- A row that lies in its matrix has a sample for each column. -/
lemma toList_chunkAt {rows cols r : ℕ} {source : Array Int16} (hsource : source.size = rows * cols)
    (hr : r < rows) :
    (chunkAt cols source r).toList =
      (List.range cols).map fun c => source.getD (r * cols + c) 0 := by
  apply List.ext_getElem?
  intro c
  rw [chunkAt, Array.getElem?_toList, Array.getElem?_extract, List.getElem?_map]
  by_cases hc : c < cols
  · have hlt : r * cols + c < rows * cols := element_lt hr hc
    rw [if_pos (by omega), List.getElem?_range hc, getElem?_eq_some_getD (by omega)]
    rfl
  · rw [if_neg (by omega), List.getElem?_eq_none (by simpa using hc)]
    rfl

/-- Row `r` of the matrix goes to column `r` of the transpose. -/
lemma fills_transposeRow {rows cols r : ℕ} {source : Array Int16}
    (hsource : source.size = rows * cols) (hr : r < rows) :
    Fills (transposed 1 rows cols source).toArray (fun i => ∃ c < cols, i = c * rows + r)
      fun target => transposeRow? rows r (chunkAt cols source r) target := by
  simp only [transposeRow?, toList_chunkAt hsource hr, zipIdx_map_range, List.foldlM_map]
  refine Fills.foldlM_range fun c hc => Fills.write ?_
  rw [List.getElem?_toArray, getElem?_transposed_one source hr hc]

/-- The loop leaves the transpose of its source, whatever its target held. -/
lemma transpose?_eq_some {rows cols : ℕ} {source target : Array Int16}
    (hsource : source.size = rows * cols) (htarget : target.size = rows * cols) :
    transpose? rows cols source target = some (transposed 1 rows cols source).toArray := by
  have hsize : (transposed 1 rows cols source).toArray.size = rows * cols := by simp
  obtain rfl | hcols := Nat.eq_zero_or_pos cols
  · -- without columns there is nothing to cut and nothing to write
    have hempty : source.size = 0 * 1 := hsource
    rw [transpose?, Nat.max_eq_right Nat.one_pos.le, chunks?_eq_some Nat.one_pos hempty,
      Array.eq_empty_of_size_eq_zero htarget]
    simp [transposed]
  · rw [transpose?, Nat.max_eq_left hcols, chunks?_eq_some hcols hsource]
    simp only [Option.bind_eq_bind, Option.bind_some]
    rw [List.take_of_length_le (by simp), zipIdx_map_range, List.foldlM_map]
    refine (Fills.foldlM_range fun r hr => fills_transposeRow hsource hr).eq_some (fun i hi => ?_)
      (htarget.trans hsize.symm)
    obtain ⟨c, hc, r, hr, hposition⟩ := exists_position (by rwa [hsize, Nat.mul_comm rows] at hi)
    exact ⟨r, hr, c, hc, hposition⟩

/-! ## The loop of the product -/

section Loops

variable {A B : Type} [Accumulator A]

/-- The product at position `k` of a row of the left factor and a row of the transpose. -/
def elementTerm (inner : ℕ) (left transposed : Array Int16) (row col k : ℕ) : ℤ :=
  valueAt left (row * inner + k) * valueAt transposed (col * inner + k)

/-- The sum for the element at `row` and `col`. -/
def elementTotal (inner : ℕ) (left transposed : Array Int16) (row col : ℕ) : A :=
  addTerms (elementTerm inner left transposed row col) 0 inner zero

/-- The dot product of a row of the left factor and a row of the transpose. -/
lemma dot?_chunkAt (lanes : Lanes) {inner row col : ℕ} {left transposed : Array Int16}
    (hleft : row * inner + inner ≤ left.size)
    (htransposed : col * inner + inner ≤ transposed.size) :
    dot? lanes zero (chunkAt inner left row) (chunkAt inner transposed col) =
      some (elementTotal inner left transposed row col : A) := by
  have hmin : min (chunkAt inner left row).size (chunkAt inner transposed col).size = inner := by
    rw [chunkAt, chunkAt, Array.size_extract, Array.size_extract]
    omega
  rw [dot?_eq_some, dotTotal, hmin, elementTotal]
  refine congrArg some (addTerms_congr _ fun k hk => ?_)
  rw [dotTerm, elementTerm, chunkAt, chunkAt, valueAt_extract (by omega),
    valueAt_extract (by omega)]

/-- The finished sums for all elements of a product, row by row. -/
def finishedTotals (finish : A → B) (rows inner cols : ℕ) (left transposed : Array Int16) :
    Array B :=
  ((List.range' 0 (rows * cols)).map fun i =>
    finish (elementTotal inner left transposed (i / cols) (i % cols))).toArray

@[simp]
lemma size_finishedTotals (finish : A → B) (rows inner cols : ℕ) (left transposed : Array Int16) :
    (finishedTotals finish rows inner cols left transposed).size = rows * cols := by
  simp [finishedTotals]

/-- Without a product to add, every sum is empty. -/
lemma finishedTotals_zero (finish : A → B) (rows cols : ℕ) (left transposed : Array Int16) :
    finishedTotals finish rows 0 cols left transposed =
      Array.replicate (rows * cols) (finish zero) := by
  have htotal : ∀ row col, (elementTotal 0 left transposed row col : A) = zero := fun _ _ => rfl
  simp only [finishedTotals, htotal, List.map_const', List.length_range', List.toArray_replicate]

/-- Row `row` of the left factor gives row `row` of the product. -/
lemma fills_realRow (lanes : Lanes) (finish : A → B) {rows inner cols row : ℕ}
    {left transposed : Array Int16} (hinner : 0 < inner) (hleft : left.size = rows * inner)
    (htransposed : transposed.size = cols * inner) (hrow : row < rows) :
    Fills (finishedTotals finish rows inner cols left transposed)
      (fun i => ∃ col < cols, i = row * cols + col) fun target =>
        realRow? lanes finish inner cols transposed (chunkAt inner left row) target
          (row * cols) := by
  have hplaces : List.range' (row * cols) cols = (List.range cols).map (row * cols + ·) :=
    List.range'_eq_map_range
  simp only [realRow?, chunks?_eq_some hinner htransposed, Option.bind_eq_bind, Option.bind_some,
    hplaces, List.zip_map', List.foldlM_map]
  refine Fills.foldlM_range fun col hcol => ?_
  have hleftRow := row_le 1 inner hrow
  have hrightRow := row_le 1 inner hcol
  rw [dot?_chunkAt lanes (by omega) (by omega)]
  refine Fills.write ?_
  rw [finishedTotals, List.getElem?_toArray]
  exact getElem?_map_elements (fun r c => finish (elementTotal inner left transposed r c)) hrow hcol

/-- The loop leaves the finished sums, whatever its target held. -/
theorem realProduct?_eq_some (lanes : Lanes) (finish : A → B) {blank : B}
    (hblank : blank = finish zero) {rows inner height cols : ℕ} {left transposed : Array Int16}
    {target : Array B} (hheight : inner = height) (hleft : left.size = rows * inner)
    (htransposed : transposed.size = cols * inner) (htarget : target.size = rows * cols) :
    realProduct? lanes finish blank inner height cols left transposed target =
      some (finishedTotals finish rows inner cols left transposed) := by
  subst hblank hheight
  have hsize := size_finishedTotals finish rows inner cols left transposed
  rw [realProduct?]
  split_ifs with hempty hinner
  · rw [Array.isEmpty_iff_size_eq_zero, htarget] at hempty
    rw [Array.eq_empty_of_size_eq_zero (htarget.trans hempty),
      Array.eq_empty_of_size_eq_zero (hsize.trans hempty)]
  · rw [hinner, finishedTotals_zero, fill, htarget]
  · have hpos : 0 < inner := Nat.pos_of_ne_zero hinner
    have hcols : 0 < cols := by
      rw [Array.isEmpty_iff_size_eq_zero, htarget] at hempty
      exact Nat.pos_of_mul_pos_left (Nat.pos_of_ne_zero hempty)
    rw [chunks?_eq_some hpos hleft, chunkStarts?_eq_some hcols htarget]
    simp only [Option.bind_eq_bind, Option.bind_some, List.zip_map', List.foldlM_map]
    exact (Fills.foldlM_range fun row hrow =>
      fills_realRow lanes finish hpos hleft htransposed hrow).eq_some
        (fun i hi => exists_position (hi.trans_eq hsize)) (htarget.trans hsize.symm)

/-- The sum for the element at row `r` and column `c` of a product, over the left factor's run and
the transpose. -/
def realElementTotal (left right : Matrix) (r c : ℕ) : A :=
  elementTotal left.cols.toNat (left.data.extract 0 (1 * left.size))
    (transposed 1 right.rows.toNat right.cols.toNat right.data).toArray r c

/-- On factors that conform and fit, the loop of the product writes all its sums. -/
lemma realProduct?_of_fits (lanes : Lanes) (finish : A → B) {blank : B}
    (hblank : blank = finish zero) {left right : Matrix} {buffers : Buffers}
    (hinner : left.cols = right.rows) (hfit : Fits 1 left right buffers) {target : Array B}
    (htarget : target.size = left.rows.toNat * right.cols.toNat) :
    realProduct? lanes finish blank left.cols.toNat right.rows.toNat right.cols.toNat
        (left.data.extract 0 (1 * left.size))
        (transposed 1 right.rows.toNat right.cols.toNat right.data).toArray target =
      some ((List.range' 0 (left.rows.toNat * right.cols.toNat)).map fun i =>
        finish
          (realElementTotal left right (i / right.cols.toNat) (i % right.cols.toNat))).toArray := by
  have hleft := size_leftRun hfit
  rw [Nat.one_mul (left.rows.toNat * _)] at hleft
  exact realProduct?_eq_some lanes finish hblank (congrArg UInt16.toNat hinner) hleft
    (by simp [hinner, Nat.mul_comm]) htarget

/-- On factors that fit, the loop of the transpose writes all its samples. -/
lemma transpose?_of_fits {left right : Matrix} {buffers : Buffers}
    (hfit : Fits 1 left right buffers) {target : Array Int16}
    (htarget : target.size = 1 * right.size) :
    transpose? right.rows.toNat right.cols.toNat (right.data.extract 0 (1 * right.size)) target =
      some (transposed 1 right.rows.toNat right.cols.toNat right.data).toArray := by
  rw [Nat.one_mul] at htarget
  rw [transpose?_eq_some ((size_rightRun hfit).trans (Nat.one_mul _)) htarget]
  exact congrArg (some ·.toArray) (transposed_extract hfit.2.1)

end Loops

/-! ## The exact product -/

/-- An element of the exact product. -/
def exactElement (left right : Matrix) (r c : ℕ) : ℤ :=
  ∑ k ∈ Finset.range left.cols.toNat,
    valueAt left.data (r * left.cols.toNat + k) * valueAt right.data (k * right.cols.toNat + c)

/-- A row of the transpose meets a row of the left factor as the column of the right factor does. -/
lemma elementTerm_transposed {left right : Matrix} (hinner : left.cols = right.rows) {r c k : ℕ}
    (hr : r < left.rows.toNat) (hc : c < right.cols.toNat) (hk : k < left.cols.toNat) :
    elementTerm left.cols.toNat (left.data.extract 0 (1 * left.size))
        (transposed 1 right.rows.toNat right.cols.toNat right.data).toArray r c k =
      valueAt left.data (r * left.cols.toNat + k) *
        valueAt right.data (k * right.cols.toNat + c) := by
  have hrow : r * left.cols.toNat + k < left.size := element_lt hr hk
  rw [elementTerm, valueAt_extract (by omega), Nat.zero_add, ← hinner,
    valueAt_transposed_one right.data hk hc]

/-- The sum for an element stands for the element of the exact product. -/
lemma realElementTotal_eq_cast {A : Type} [Accumulator A] [Lawful A] {left right : Matrix}
    (hinner : left.cols = right.rows) {r c : ℕ} (hr : r < left.rows.toNat)
    (hc : c < right.cols.toNat) :
    realElementTotal left right r c = (Lawful.cast (exactElement left right r c) : A) := by
  rw [realElementTotal, elementTotal, addTerms_zero_eq_cast, exactElement]
  refine congrArg Lawful.cast (Finset.sum_congr rfl fun k hk => ?_)
  rw [Nat.zero_add, elementTerm_transposed hinner hr hc (Finset.mem_range.1 hk)]

/-- The samples of the product, element by element. -/
def realSamples (left right : Matrix) : Array Int16 :=
  ((List.range' 0 (left.rows.toNat * right.cols.toNat)).map fun i =>
    Int16.ofInt
      (exactElement left right (i / right.cols.toNat) (i % right.cols.toNat) / 2 ^ 15)).toArray

lemma size_realSamples (left right : Matrix) :
    (realSamples left right).size = left.rows.toNat * right.cols.toNat := by
  simp [realSamples]

lemma getElem?_realSamples {left right : Matrix} {r c : ℕ} (hr : r < left.rows.toNat)
    (hc : c < right.cols.toNat) :
    (realSamples left right)[r * right.cols.toNat + c]? =
      some (Int16.ofInt (exactElement left right r c / 2 ^ 15)) := by
  rw [realSamples, List.getElem?_toArray]
  exact getElem?_map_elements
    (fun r c => Int16.ofInt (exactElement left right r c / 2 ^ 15)) hr hc

/-! ## The kernel -/

/-- In either width the loop of the product, run on factors that conform and fit, leaves these
samples. -/
lemma realProduct?_eq_realSamples (lanes : Lanes) {left right : Matrix} {buffers : Buffers}
    (hinner : left.cols = right.rows) (hfit : Fits 1 left right buffers) :
    realProduct? lanes Q15.finishWrapping 0 left.cols.toNat right.rows.toNat right.cols.toNat
        (left.data.extract 0 (1 * left.size))
        (transposed 1 right.rows.toNat right.cols.toNat right.data).toArray
        (buffers.destination.data.extract 0 (1 * (left.rows.toNat * right.cols.toNat))) =
      some (realSamples left right) := by
  rw [realProduct?_of_fits lanes _ (by decide) hinner hfit
    ((size_resultRun hfit).trans (Nat.one_mul _)), realSamples]
  refine congrArg (some ·.toArray) (List.map_congr_left fun i hi => ?_)
  rw [List.mem_range'_1] at hi
  obtain ⟨hrow, hcol⟩ := row_lt_and_col_lt (by simpa using hi.2)
  rw [realElementTotal_eq_cast hinner hrow hcol]
  exact Q15.finishWrapping_ofInt _

/-- The call in either width, for shapes that conform and buffers that are long enough. -/
theorem multiplyReal_of_fits (lanes : Lanes) {left right : Matrix} {buffers : Buffers}
    (hshape : Conforms left.toShape right.toShape buffers.destination.toShape)
    (hfit : Fits 1 left right buffers) :
    multiplyReal lanes left right buffers =
      .done
        ⟨{ buffers.destination with
            data := Buffer.overlay (realSamples left right) buffers.destination.data },
          Buffer.overlay (transposed 1 right.rows.toNat right.cols.toNat right.data).toArray
            buffers.scratch⟩ :=
  multiplyBy_of_fits hshape hfit (transpose?_of_fits hfit (size_transposeRun hfit))
    (realProduct?_eq_realSamples lanes hshape.1 hfit)

/-- What a call that conforms and fits leaves in the destination, element by element. -/
lemma exists_realProduct (lanes : Lanes) {left right : Matrix} {buffers : Buffers}
    (hshape : Conforms left.toShape right.toShape buffers.destination.toShape)
    (hfit : Fits 1 left right buffers) :
    ∃ data scratch, multiplyReal lanes left right buffers =
        .done ⟨{ buffers.destination with data }, scratch⟩ ∧
      ∀ r < left.rows.toNat, ∀ c < right.cols.toNat,
        data[r * right.cols.toNat + c]? =
          some (Int16.ofInt (exactElement left right r c / 2 ^ 15)) := by
  refine ⟨_, _, multiplyReal_of_fits lanes hshape hfit, ?_⟩
  intro r hr c hc
  have hlt := element_lt hr hc
  have hsize := size_realSamples left right
  have hdestination := hfit.2.2.1
  rw [Buffer.getElem?_overlay_of_lt (by omega) (by omega), getElem?_realSamples hr hc]

theorem multiplyReal_lanes (lanes lanes' : Lanes) (left right : Matrix) (buffers : Buffers) :
    multiplyReal lanes left right buffers = multiplyReal lanes' left right buffers :=
  multiplyBy_congr fun hshape hfit =>
    (multiplyReal_of_fits lanes hshape hfit).trans (multiplyReal_of_fits lanes' hshape hfit).symm

/-- **The real product.**  For shapes that conform and buffers that are long enough, whatever they
held, every element of the destination is the sample congruent modulo `2 ^ 16` to the element of
the exact product without its fraction bits, which is zero where there is nothing to add, and the
scratch buffer starts with the transpose of the right factor. -/
theorem multiplyReal_is_product_mod (lanes : Lanes) (left right : Matrix) (buffers : Buffers)
    (hinner : left.cols = right.rows) (hrows : left.rows = buffers.destination.rows)
    (hcols : right.cols = buffers.destination.cols)
    (hleft : left.rows.toNat * left.cols.toNat ≤ left.data.size)
    (hright : right.rows.toNat * right.cols.toNat ≤ right.data.size)
    (hdestination : left.rows.toNat * right.cols.toNat ≤ buffers.destination.data.size)
    (hscratch : right.rows.toNat * right.cols.toNat ≤ buffers.scratch.size) :
    ∃ data scratch, multiplyReal lanes left right buffers =
        .done ⟨{ buffers.destination with data }, scratch⟩ ∧
      (∀ r < left.rows.toNat, ∀ c < right.cols.toNat, ∃ sample : Int16,
        data[r * right.cols.toNat + c]? = some sample ∧
        sample.toInt ≡ exactElement left right r c / 2 ^ 15 [ZMOD 2 ^ 16] ∧
        (left.cols = 0 → sample = 0)) ∧
      (∀ r < right.rows.toNat, ∀ c < right.cols.toNat,
        scratch[c * right.rows.toNat + r]? = right.data[r * right.cols.toNat + c]?) := by
  have hfit : Fits 1 left right buffers := by
    simpa only [Fits, Nat.one_mul] using ⟨hleft, hright, hdestination, hscratch⟩
  refine ⟨_, _, multiplyReal_of_fits lanes ⟨hinner, hrows, hcols⟩ hfit, ?_, ?_⟩
  · intro r hr c hc
    have hlt : r * right.cols.toNat + c < (realSamples left right).size := by
      rw [size_realSamples]
      exact element_lt hr hc
    have hsize : (realSamples left right).size ≤ buffers.destination.data.size := by
      rwa [size_realSamples]
    refine ⟨Int16.ofInt (exactElement left right r c / 2 ^ 15), ?_,
      (Q15.ofInt_eq_iff_modEq _ _).1 rfl, ?_⟩
    · rw [Buffer.getElem?_overlay_of_lt hsize hlt, getElem?_realSamples hr hc]
    · intro hempty
      have hsum : exactElement left right r c = 0 := by simp [exactElement, hempty]
      rw [hsum]
      rfl
  · intro r hr c hc
    have hsource := element_lt hr hc
    have htarget := element_lt hc hr
    rw [Nat.mul_comm right.cols.toNat] at htarget
    rw [Buffer.getElem?_overlay_of_lt (by simpa using hscratch) (by simpa using htarget),
      List.getElem?_toArray, getElem?_transposed_one right.data hr hc,
      getElem?_eq_some_getD (by omega)]

/-- Three products of the two lowest samples: their sum is past the range of 32 bits, and the
sample is that of the exact sum all the same. -/
theorem multiplyReal_is_product_mod_past_overflow :
    ∃ data scratch, multiplyReal .two ⟨⟨1, 3⟩, #[-32768, -32768, -32768]⟩
        ⟨⟨3, 1⟩, #[-32768, -32768, -32767]⟩ ⟨⟨⟨1, 1⟩, #[9, 7]⟩, #[8, 8, 8, 8]⟩ =
          .done ⟨⟨⟨1, 1⟩, data⟩, scratch⟩ ∧
      data[0]? = some (32767 : Int16) ∧ scratch[2]? = some (-32767 : Int16) := by
  obtain ⟨data, scratch, hdone, hsample, htranspose⟩ :=
    multiplyReal_is_product_mod .two ⟨⟨1, 3⟩, #[-32768, -32768, -32768]⟩
      ⟨⟨3, 1⟩, #[-32768, -32768, -32767]⟩ ⟨⟨⟨1, 1⟩, #[9, 7]⟩, #[8, 8, 8, 8]⟩
      rfl rfl rfl (by decide) (by decide) (by decide) (by decide)
  obtain ⟨sample, hread, hvalue, -⟩ := hsample 0 (by decide) 0 (by decide)
  have hexact : sample = Int16.ofInt 98303 := by
    symm
    rw [Q15.ofInt_eq_iff_modEq]
    exact hvalue
  have hsampleValue : sample = 32767 := by
    rw [hexact]
    rfl
  exact ⟨data, scratch, hdone, by simpa [hsampleValue] using hread,
    by simpa using htranspose 2 (by decide) 0 (by decide)⟩

end SignalCore.Matrix
