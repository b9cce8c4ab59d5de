import SignalCore.Matrix.Basic
import SignalCore.Proofs.Buffer
import SignalCore.Proofs.Fixed.Value

/-!
# Row by row, column by column

The arithmetic of flat positions, the transpose, and the frame of a product.  Sample `p` of the
element at row `r` and column `c` stands at `width * (r * cols + c) + p`, and the transpose holds
it at `width * (c * rows + r) + p` (`getElem?_transposed`).  A product whose shapes conform and
whose buffers are long enough is decided by what its loops write over the runs that its buffers are
cut to (`multiplyBy_of_fits`).
-/

namespace SignalCore.Matrix

/-! ## Flat positions -/

lemma element_lt {rows cols r c : ℕ} (hr : r < rows) (hc : c < cols) :
    r * cols + c < rows * cols := by
  calc
    r * cols + c < r * cols + cols := by omega
    _ = (r + 1) * cols := (Nat.succ_mul r cols).symm
    _ ≤ rows * cols := Nat.mul_le_mul_right cols hr

lemma sample_lt {width elements k p : ℕ} (hk : k < elements) (hp : p < width) :
    width * k + p < width * elements := by
  rw [Nat.mul_comm width k, Nat.mul_comm width elements]
  exact element_lt hk hp

lemma row_of_position {cols r c : ℕ} (hc : c < cols) : (r * cols + c) / cols = r := by
  rw [Nat.mul_comm, Nat.mul_add_div (Nat.zero_lt_of_lt hc), Nat.div_eq_of_lt hc, Nat.add_zero]

lemma col_of_position {cols r c : ℕ} (hc : c < cols) : (r * cols + c) % cols = c := by
  rw [Nat.mul_comm, Nat.mul_add_mod, Nat.mod_eq_of_lt hc]

lemma row_lt_and_col_lt {rows cols i : ℕ} (hi : i < rows * cols) :
    i / cols < rows ∧ i % cols < cols := by
  have hcols : 0 < cols := Nat.pos_of_mul_pos_left (Nat.zero_lt_of_lt hi)
  rw [Nat.mul_comm] at hi
  exact ⟨Nat.div_lt_of_lt_mul hi, Nat.mod_lt i hcols⟩

/-- Every position is that of an element. -/
lemma exists_position {rows cols i : ℕ} (hi : i < rows * cols) :
    ∃ r < rows, ∃ c < cols, i = r * cols + c := by
  obtain ⟨hrow, hcol⟩ := row_lt_and_col_lt hi
  exact ⟨i / cols, hrow, i % cols, hcol, (Nat.div_add_mod' i cols).symm⟩

/-- A list of all elements row by row holds each of them at its position. -/
lemma getElem?_map_elements {α : Type} (element : ℕ → ℕ → α) {rows cols r c : ℕ} (hr : r < rows)
    (hc : c < cols) :
    ((List.range' 0 (rows * cols)).map fun i => element (i / cols) (i % cols))[r * cols + c]? =
      some (element r c) := by
  rw [List.getElem?_map, List.getElem?_range' (element_lt hr hc), Option.map_some, Nat.one_mul,
    Nat.zero_add, row_of_position hc, col_of_position hc]

/-- A run of `inner` elements that starts at the beginning of a row ends with the row. -/
lemma row_le (width inner : ℕ) {rows r : ℕ} (hr : r < rows) :
    width * (r * inner) + width * inner ≤ width * (rows * inner) := by
  rw [← Nat.mul_add, ← Nat.succ_mul]
  exact Nat.mul_le_mul_left width (Nat.mul_le_mul_right inner hr)

/-- A run that holds two samples for each element holds the first of them at even positions and the
second at odd ones. -/
lemma getElem?_flatMap_pair {α β : Type} (first second : α → β) (elements : List α) (i : ℕ) :
    (elements.flatMap fun element => [first element, second element])[2 * i]? =
        elements[i]?.map first ∧
      (elements.flatMap fun element => [first element, second element])[2 * i + 1]? =
        elements[i]?.map second := by
  induction elements generalizing i with
  | nil => simp
  | cons element elements ih =>
    cases i with
    | zero => exact ⟨rfl, rfl⟩
    | succ i => exact ih i

lemma length_flatMap_pair {α β : Type} (first second : α → β) (elements : List α) :
    (elements.flatMap fun element => [first element, second element]).length =
      2 * elements.length := by
  induction elements with
  | nil => rfl
  | cons element elements ih =>
    rw [List.flatMap_cons, List.length_append, ih, List.length_cons]
    simp only [List.length_cons, List.length_nil]
    omega

/-! ## The transpose -/

/-- The samples of the transpose of a matrix of `rows` rows. -/
def transposed (width rows cols : ℕ) (data : Array Int16) : List Int16 :=
  (List.range' 0 (width * (rows * cols))).map fun i =>
    data.getD (width * (i / width % rows * cols + i / width / rows) + i % width) 0

@[simp]
lemma length_transposed (width rows cols : ℕ) (data : Array Int16) :
    (transposed width rows cols data).length = width * (rows * cols) := by
  simp [transposed]

/-- Nothing behind the elements of a matrix gets into its transpose. -/
lemma transposed_extract {width rows cols : ℕ} {data : Array Int16}
    (hfit : width * (rows * cols) ≤ data.size) :
    transposed width rows cols (data.extract 0 (width * (rows * cols))) =
      transposed width rows cols data := by
  refine List.map_congr_left fun i hi => ?_
  rw [List.mem_range'_1, Nat.zero_add] at hi
  have helement : i / width < rows * cols := Nat.div_lt_of_lt_mul hi.2
  have hwidth : 0 < width := Nat.pos_of_mul_pos_right (Nat.zero_lt_of_lt hi.2)
  have hrows : 0 < rows := Nat.pos_of_mul_pos_right (Nat.zero_lt_of_lt helement)
  have hcol : i / width / rows < cols := Nat.div_lt_of_lt_mul helement
  have hsource := sample_lt (element_lt (Nat.mod_lt (i / width) hrows) hcol) (Nat.mod_lt i hwidth)
  rw [Array.getD_eq_getD_getElem?, Array.getElem?_extract, if_pos (by omega), Nat.zero_add,
    ← Array.getD_eq_getD_getElem?]

lemma getElem?_transposed {width rows cols r c p : ℕ} {data : Array Int16} (hr : r < rows)
    (hc : c < cols) (hp : p < width) :
    (transposed width rows cols data)[width * (c * rows + r) + p]? =
      some (data.getD (width * (r * cols + c) + p) 0) := by
  have hlt : width * (c * rows + r) + p < width * (rows * cols) := by
    rw [Nat.mul_comm rows cols]
    exact sample_lt (element_lt hc hr) hp
  -- the samples of an element are the columns of its position
  have helement : (width * (c * rows + r) + p) / width = c * rows + r := by
    rw [Nat.mul_comm width]
    exact row_of_position hp
  have hpart : (width * (c * rows + r) + p) % width = p := by
    rw [Nat.mul_comm width]
    exact col_of_position hp
  rw [transposed, List.getElem?_map, List.getElem?_range' hlt, Option.map_some, Nat.one_mul,
    Nat.zero_add, helement, hpart, row_of_position hr, col_of_position hr]

lemma valueAt_transposed {width rows cols r c p : ℕ} {data : Array Int16} (hr : r < rows)
    (hc : c < cols) (hp : p < width) :
    valueAt (transposed width rows cols data).toArray (width * (c * rows + r) + p) =
      valueAt data (width * (r * cols + c) + p) := by
  simp [valueAt, Array.getD_eq_getD_getElem?, getElem?_transposed hr hc hp]

/-! ## The frame of a product -/

section Frame

variable {width : ℕ} {layOut? : Array Int16 → Array Int16 → Option (Array Int16)}
  {product? product?' : Array Int16 → Array Int16 → Array Int16 → Option (Array Int16)}
  {left right : Matrix} {buffers : Buffers}

lemma multiplyBy_of_not_conforms
    (hshape : ¬ Conforms left.toShape right.toShape buffers.destination.toShape) :
    multiplyBy width layOut? product? left right buffers =
      .refused ⟨left.toShape, right.toShape, buffers.destination.toShape⟩ buffers :=
  if_pos hshape

lemma multiplyBy_of_not_fits
    (hshape : Conforms left.toShape right.toShape buffers.destination.toShape)
    (hfit : ¬ Fits width left right buffers) :
    multiplyBy width layOut? product? left right buffers = .outOfBounds buffers := by
  rw [multiplyBy, if_neg (not_not.2 hshape), if_pos hfit]

/-! ### The runs of a product that fits -/

/-- The run that the loops take from a left factor that fits is the whole of it. -/
lemma size_leftRun (hfit : Fits width left right buffers) :
    (left.data.extract 0 (width * left.size)).size =
      width * (left.rows.toNat * left.cols.toNat) := by
  rw [Array.size_extract, Nat.min_eq_left hfit.1]
  rfl

lemma size_rightRun (hfit : Fits width left right buffers) :
    (right.data.extract 0 (width * right.size)).size =
      width * (right.rows.toNat * right.cols.toNat) := by
  rw [Array.size_extract, Nat.min_eq_left hfit.2.1]
  rfl

lemma size_resultRun (hfit : Fits width left right buffers) :
    (buffers.destination.data.extract 0
        (width * (left.rows.toNat * right.cols.toNat))).size =
      width * (left.rows.toNat * right.cols.toNat) := by
  rw [Array.size_extract, Nat.min_eq_left hfit.2.2.1, Nat.sub_zero]

lemma size_transposeRun (hfit : Fits width left right buffers) :
    (buffers.scratch.extract 0 (width * right.size)).size =
      width * (right.rows.toNat * right.cols.toNat) := by
  rw [Array.size_extract, Nat.min_eq_left hfit.2.2.2]
  rfl

/-- A product that conforms and fits, and whose loops leave the transpose of the right factor in one
run and `samples` in the other, leaves them at the starts of its buffers. -/
lemma multiplyBy_of_fits (hshape : Conforms left.toShape right.toShape buffers.destination.toShape)
    (hfit : Fits width left right buffers) {samples : Array Int16}
    (hlayOut : layOut? (right.data.extract 0 (width * right.size))
        (buffers.scratch.extract 0 (width * right.size)) =
      some (transposed width right.rows.toNat right.cols.toNat right.data).toArray)
    (hproduct : product? (left.data.extract 0 (width * left.size))
        (transposed width right.rows.toNat right.cols.toNat right.data).toArray
        (buffers.destination.data.extract 0 (width * (left.rows.toNat * right.cols.toNat))) =
      some samples) :
    multiplyBy width layOut? product? left right buffers =
      .done
        ⟨{ buffers.destination with data := Buffer.overlay samples buffers.destination.data },
          Buffer.overlay (transposed width right.rows.toNat right.cols.toNat right.data).toArray
            buffers.scratch⟩ := by
  rw [multiplyBy, if_neg (not_not.2 hshape), if_neg (not_not.2 hfit)]
  dsimp only
  rw [hlayOut]
  dsimp only
  rw [hproduct]

/-- Two products that agree wherever they are run agree. -/
lemma multiplyBy_congr
    (h : Conforms left.toShape right.toShape buffers.destination.toShape →
      Fits width left right buffers →
        multiplyBy width layOut? product? left right buffers =
          multiplyBy width layOut? product?' left right buffers) :
    multiplyBy width layOut? product? left right buffers =
      multiplyBy width layOut? product?' left right buffers := by
  by_cases hshape : Conforms left.toShape right.toShape buffers.destination.toShape
  · by_cases hfit : Fits width left right buffers
    · exact h hshape hfit
    · rw [multiplyBy_of_not_fits hshape hfit, multiplyBy_of_not_fits hshape hfit]
  · rw [multiplyBy_of_not_conforms hshape, multiplyBy_of_not_conforms hshape]

end Frame

end SignalCore.Matrix
