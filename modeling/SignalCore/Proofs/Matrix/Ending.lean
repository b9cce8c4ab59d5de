import SignalCore.Proofs.Matrix.Complex
import SignalCore.Proofs.Matrix.Real

/-!
# How a product ends

A product of matrices ends in one of three ways, and which one is settled before anything is
written: shapes that do not conform are refused, buffers that are too short are found out, and
otherwise the call runs to its end (`product_all_or_nothing`).  Both products share the checks and
differ in the number of samples in an element, so both are taken together as the products of an
`Element`.
-/

namespace SignalCore.Matrix

/-! ## Products of either kind -/

/-- What an element of a matrix is. -/
inductive Element where
  | real
  | complex
deriving DecidableEq, Repr

namespace Element

/-- The number of samples in an element. -/
def width : Element → ℕ
  | real => 1
  | complex => 2

/-- The product of matrices of such elements. -/
def multiply (lanes : Lanes) : Element → Matrix → Matrix → Buffers → Outcome SizeMismatch Buffers
  | real => multiplyReal lanes
  | complex => multiplyComplex lanes

variable {element : Element} {left right : Matrix} {buffers : Buffers}

/-- Both products are run in the frame that makes the checks. -/
lemma exists_multiplyBy (element : Element) (lanes : Lanes) (left right : Matrix)
    (buffers : Buffers) :
    ∃ layOut? product?, element.multiply lanes left right buffers =
      multiplyBy element.width layOut? product? left right buffers := by
  cases element with
  | real =>
    rw [multiply, multiplyReal]
    exact ⟨_, _, rfl⟩
  | complex =>
    rw [multiply, multiplyComplex]
    exact ⟨_, _, rfl⟩

lemma multiply_of_not_conforms (lanes : Lanes)
    (hshape : ¬ Conforms left.toShape right.toShape buffers.destination.toShape) :
    element.multiply lanes left right buffers =
      .refused ⟨left.toShape, right.toShape, buffers.destination.toShape⟩ buffers := by
  obtain ⟨layOut?, product?, hframe⟩ := element.exists_multiplyBy lanes left right buffers
  rw [hframe, multiplyBy_of_not_conforms hshape]

lemma multiply_of_not_fits (lanes : Lanes)
    (hshape : Conforms left.toShape right.toShape buffers.destination.toShape)
    (hfit : ¬ Fits element.width left right buffers) :
    element.multiply lanes left right buffers = .outOfBounds buffers := by
  obtain ⟨layOut?, product?, hframe⟩ := element.exists_multiplyBy lanes left right buffers
  rw [hframe, multiplyBy_of_not_fits hshape hfit]

/-- A call that conforms and fits writes as many samples as the product has over the start of the
destination, and the transpose of the right factor over the start of the scratch buffer. -/
lemma exists_multiply_of_fits (lanes : Lanes)
    (hshape : Conforms left.toShape right.toShape buffers.destination.toShape)
    (hfit : Fits element.width left right buffers) :
    ∃ samples transpose : Array Int16,
      samples.size = element.width * (left.rows.toNat * right.cols.toNat) ∧
      transpose.size = element.width * (right.rows.toNat * right.cols.toNat) ∧
      element.multiply lanes left right buffers =
        .done
          ⟨{ buffers.destination with
              data := Buffer.overlay samples buffers.destination.data },
            Buffer.overlay transpose buffers.scratch⟩ := by
  cases element with
  | real =>
    refine ⟨_, _, ?_, ?_, multiplyReal_of_fits lanes hshape hfit⟩
    · rw [size_realSamples, width, Nat.one_mul]
    · rw [List.size_toArray, length_transposed, width]
  | complex =>
    refine ⟨_, _, ?_, ?_, multiplyComplex_of_fits lanes hshape hfit⟩
    · rw [size_complexSamples, width]
    · rw [List.size_toArray, length_transposed, width]

end Element

/-! ## Positions -/

/-- The positions that the loops of a product ask for, each against the length of the run it is
read from or written to.  A run is cut to the samples that its matrix needs before the loops start,
so these are the bounds that count, whatever lies behind the run in its buffer. -/
structure StaysInRuns (width : ℕ) (left right : Shape) : Prop where
  /-- A sample of the right factor, read while it is transposed. -/
  source : ∀ r < right.rows.toNat, ∀ c < right.cols.toNat, ∀ p < width,
    width * (r * right.cols.toNat + c) + p < width * right.size
  /-- The place of that sample in the transpose. -/
  target : ∀ r < right.rows.toNat, ∀ c < right.cols.toNat, ∀ p < width,
    width * (c * right.rows.toNat + r) + p < width * right.size
  /-- A row of the left factor. -/
  row : ∀ r < left.rows.toNat,
    width * (r * left.cols.toNat) + width * left.cols.toNat ≤ width * left.size
  /-- A row of the transpose, taken as long as a row of the left factor. -/
  transposedRow : ∀ c < right.cols.toNat,
    width * (c * left.cols.toNat) + width * left.cols.toNat ≤ width * right.size
  /-- A sample of the product. -/
  product : ∀ r < left.rows.toNat, ∀ c < right.cols.toNat, ∀ p < width,
    width * (r * right.cols.toNat + c) + p < width * (left.rows.toNat * right.cols.toNat)

lemma staysInRuns (width : ℕ) {left right : Shape} (hinner : left.cols = right.rows) :
    StaysInRuns width left right where
  source _ hr _ hc _ hp := sample_lt (element_lt hr hc) hp
  target r hr c hc p hp := by
    rw [Shape.size, Nat.mul_comm right.rows.toNat]
    exact sample_lt (element_lt hc hr) hp
  row _ hr := row_le width left.cols.toNat hr
  transposedRow c hc := by
    rw [Shape.size, ← hinner, Nat.mul_comm left.cols.toNat]
    exact row_le width left.cols.toNat hc
  product _ hr _ hc _ hp := sample_lt (element_lt hr hc) hp

/-- Sixteen bits of rows, sixteen bits of columns and at most two samples in an element leave every
length, and so every position below one, far from the end of 64 bits. -/
lemma run_length_lt (element : Element) (rows cols : UInt16) :
    element.width * (rows.toNat * cols.toNat) < 2 ^ 64 := by
  have hwidth : element.width ≤ 2 := by cases element <;> decide
  calc
    element.width * (rows.toNat * cols.toNat) ≤ 2 * (2 ^ 16 * 2 ^ 16) :=
      Nat.mul_le_mul hwidth
        (Nat.mul_le_mul (Nat.le_of_lt rows.toNat_lt) (Nat.le_of_lt cols.toNat_lt))
    _ < 2 ^ 64 := by decide

/-! ## The three endings -/

/-- The third shape is not that of the product of the first two. -/
def Mismatched (left right destination : Shape) : Prop :=
  left.cols ≠ right.rows ∨ left.rows ≠ destination.rows ∨ right.cols ≠ destination.cols

lemma mismatched_iff {left right destination : Shape} :
    Mismatched left right destination ↔ ¬ Conforms left right destination := by
  simp only [Mismatched, Conforms, not_and_or, ne_eq]

/-- Some buffer holds fewer samples than a product reads or writes there. -/
def TooShort (width : ℕ) (left right : Matrix) (buffers : Buffers) : Prop :=
  left.data.size < width * (left.rows.toNat * left.cols.toNat) ∨
    right.data.size < width * (right.rows.toNat * right.cols.toNat) ∨
    buffers.destination.data.size < width * (left.rows.toNat * right.cols.toNat) ∨
    buffers.scratch.size < width * (right.rows.toNat * right.cols.toNat)

lemma tooShort_iff {width : ℕ} {left right : Matrix} {buffers : Buffers} :
    TooShort width left right buffers ↔ ¬ Fits width left right buffers := by
  simp only [TooShort, Fits, Shape.size, not_and_or, Nat.not_le]

/-- `after` is `before` from position `n` on, and as long as it. -/
def KeptFrom (n : ℕ) (before after : Array Int16) : Prop :=
  after.size = before.size ∧ ∀ i, n ≤ i → after[i]? = before[i]?

lemma keptFrom_overlay {n : ℕ} {samples buffer : Array Int16} (hn : samples.size = n) :
    KeptFrom n buffer (Buffer.overlay samples buffer) :=
  ⟨Buffer.size_overlay samples buffer, fun _ hi => Buffer.getElem?_overlay_of_le (hn ▸ hi)⟩

/-- The outcome of a call follows from the shapes and the lengths alone. -/
lemma multiply_ends (element : Element) (lanes : Lanes) (left right : Matrix) (buffers : Buffers) :
    (Mismatched left.toShape right.toShape buffers.destination.toShape ∧
      element.multiply lanes left right buffers =
        .refused ⟨left.toShape, right.toShape, buffers.destination.toShape⟩ buffers) ∨
    ((¬ Mismatched left.toShape right.toShape buffers.destination.toShape ∧
        TooShort element.width left right buffers) ∧
      element.multiply lanes left right buffers = .outOfBounds buffers) ∨
    ((¬ Mismatched left.toShape right.toShape buffers.destination.toShape ∧
        ¬ TooShort element.width left right buffers) ∧
      ∃ data scratch,
        element.multiply lanes left right buffers =
          .done ⟨{ buffers.destination with data }, scratch⟩ ∧
        KeptFrom (element.width * (left.rows.toNat * right.cols.toNat))
          buffers.destination.data data ∧
        KeptFrom (element.width * (right.rows.toNat * right.cols.toNat)) buffers.scratch
          scratch) := by
  rw [mismatched_iff, tooShort_iff, not_not, not_not]
  by_cases hshape : Conforms left.toShape right.toShape buffers.destination.toShape
  · by_cases hfit : Fits element.width left right buffers
    · obtain ⟨samples, transpose, hsamples, htranspose, hdone⟩ :=
        element.exists_multiply_of_fits lanes hshape hfit
      exact .inr (.inr ⟨⟨hshape, hfit⟩, _, _, hdone, keptFrom_overlay hsamples,
        keptFrom_overlay htranspose⟩)
    · exact .inr (.inl ⟨⟨hshape, hfit⟩, Element.multiply_of_not_fits lanes hshape hfit⟩)
  · exact .inl ⟨hshape, Element.multiply_of_not_conforms lanes hshape⟩

/-- **A product is all or nothing.**  Whatever the shapes and the lengths of the four buffers, a
call is refused with all six dimensions just when the shapes do not conform, asks for more than a
buffer holds just when they conform and a buffer is too short, and otherwise runs to its end.  In
the first two cases both buffers are as they were, in the third they are so behind the product and
behind the transpose, and no position that its loops ask for lies outside its run or passes 64
bits. -/
theorem product_all_or_nothing (element : Element) (lanes : Lanes) (left right : Matrix)
    (buffers : Buffers) :
    (element.multiply lanes left right buffers =
        .refused ⟨left.toShape, right.toShape, buffers.destination.toShape⟩ buffers ↔
      Mismatched left.toShape right.toShape buffers.destination.toShape) ∧
    (element.multiply lanes left right buffers = .outOfBounds buffers ↔
      ¬ Mismatched left.toShape right.toShape buffers.destination.toShape ∧
        TooShort element.width left right buffers) ∧
    ((∃ data scratch,
        element.multiply lanes left right buffers =
          .done ⟨{ buffers.destination with data }, scratch⟩ ∧
        KeptFrom (element.width * (left.rows.toNat * right.cols.toNat))
          buffers.destination.data data ∧
        KeptFrom (element.width * (right.rows.toNat * right.cols.toNat)) buffers.scratch scratch) ↔
      ¬ Mismatched left.toShape right.toShape buffers.destination.toShape ∧
        ¬ TooShort element.width left right buffers) ∧
    (¬ Mismatched left.toShape right.toShape buffers.destination.toShape →
      StaysInRuns element.width left.toShape right.toShape) ∧
    ∀ rows cols : UInt16, element.width * (rows.toNat * cols.toNat) < 2 ^ 64 := by
  refine ⟨?_, ?_, ?_, fun hshape => ?_, run_length_lt element⟩
  -- two endings never meet, so each belongs to its own case alone
  · obtain ⟨hcase, hend⟩ | ⟨hcase, hend⟩ | ⟨hcase, data, scratch, hend, -⟩ :=
      multiply_ends element lanes left right buffers <;> simp [hcase, hend]
  · obtain ⟨hcase, hend⟩ | ⟨hcase, hend⟩ | ⟨hcase, data, scratch, hend, -⟩ :=
      multiply_ends element lanes left right buffers <;> simp [hcase, hend]
  · obtain ⟨hcase, hend⟩ | ⟨hcase, hend⟩ | ⟨hcase, hend⟩ :=
      multiply_ends element lanes left right buffers
    · simp [hcase, hend]
    · simp [hcase, hend]
    · exact iff_of_true hend hcase
  · exact staysInRuns element.width (not_not.1 (mismatched_iff.not.1 hshape)).1

/-- One row times one column of complex elements, with a sample to spare behind the product and one
behind the transpose. -/
theorem product_all_or_nothing_with_room :
    (∃ data scratch, Element.complex.multiply .two ⟨⟨1, 2⟩, #[-32768, 0, -32768, 0]⟩
        ⟨⟨2, 1⟩, #[-32768, 32767, 0, 32767]⟩ ⟨⟨⟨1, 1⟩, #[9, 9, 7]⟩, #[8, 8, 8, 8, 6]⟩ =
          .done ⟨⟨⟨1, 1⟩, data⟩, scratch⟩ ∧
      data[2]? = some (7 : Int16) ∧ scratch[4]? = some (6 : Int16)) ∧
    StaysInRuns 2 ⟨1, 2⟩ ⟨2, 1⟩ := by
  have hshape : ¬ Mismatched ⟨1, 2⟩ ⟨2, 1⟩ ⟨1, 1⟩ := by simp [Mismatched]
  obtain ⟨-, -, hdone, hruns, -⟩ := product_all_or_nothing .complex .two
    ⟨⟨1, 2⟩, #[-32768, 0, -32768, 0]⟩ ⟨⟨2, 1⟩, #[-32768, 32767, 0, 32767]⟩
    ⟨⟨⟨1, 1⟩, #[9, 9, 7]⟩, #[8, 8, 8, 8, 6]⟩
  obtain ⟨data, scratch, hend, ⟨-, hdata⟩, -, hscratch⟩ :=
    hdone.2 ⟨hshape, by simp [TooShort, Element.width]⟩
  exact ⟨⟨data, scratch, hend, hdata 2 (by decide), hscratch 4 (by decide)⟩, hruns hshape⟩

end SignalCore.Matrix
