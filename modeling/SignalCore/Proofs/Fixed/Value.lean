import SignalCore.Fixed.Packed
import Mathlib.Algebra.Order.Ring.Abs
import Mathlib.Tactic.NormNum

/-!
# The values of samples by position

`valueAt samples i` is the sample at `i` as an integer, and zero outside the buffer.  The loops of
the kernels read with bounds checks and the sums that they stand for are written with `valueAt`;
`getElem?_eq_some_getD`, `read?_eq_some` and `readBack?_eq_some` take a checked read that stays
inside its buffer to the samples that it gives.  No other read of a pair gives anything
(`isSome_read?_iff`, `isSome_readBack?_iff`).
-/

namespace SignalCore

/-- The value of the sample at `i`, and zero outside the buffer. -/
def valueAt (samples : Array Int16) (i : ℕ) : ℤ :=
  (samples.getD i 0).toInt

/-! ## Checked reads -/

lemma getElem?_eq_some_getD {samples : Array Int16} {i : ℕ} (hi : i < samples.size) :
    samples[i]? = some (samples.getD i 0) := by
  simp [Array.getD, hi]

lemma mem_iff_getD {samples : Array Int16} {sample : Int16} :
    sample ∈ samples ↔ ∃ i < samples.size, samples.getD i 0 = sample := by
  rw [Array.mem_iff_getElem]
  constructor
  · rintro ⟨i, hi, hread⟩
    exact ⟨i, hi, by simpa [Array.getD, hi] using hread⟩
  · rintro ⟨i, hi, hread⟩
    exact ⟨i, hi, by simpa [Array.getD, hi] using hread⟩

namespace Packed

/-- The samples at `i` and `i + 1` as a pair, with zeros outside the buffer. -/
def pairAt (samples : Array Int16) (i : ℕ) : Packed :=
  ofLanes (samples.getD i 0) (samples.getD (i + 1) 0)

/-- The samples at `i` and `i - 1` as a pair, with zeros outside the buffer. -/
def pairBackAt (samples : Array Int16) (i : ℕ) : Packed :=
  ofLanes (samples.getD i 0) (samples.getD (i - 1) 0)

lemma read?_eq_some {samples : Array Int16} {i : ℕ} (hi : i + 1 < samples.size) :
    read? samples i = some (pairAt samples i) := by
  rw [read?, getElem?_eq_some_getD (by omega), getElem?_eq_some_getD hi]
  rfl

lemma readBack?_eq_some {samples : Array Int16} {i : ℕ} (hpos : 0 < i) (hi : i < samples.size) :
    readBack? samples i = some (pairBackAt samples i) := by
  obtain ⟨i, rfl⟩ := Nat.exists_eq_add_one.2 hpos
  rw [readBack?, getElem?_eq_some_getD hi, getElem?_eq_some_getD (by omega)]
  rfl

lemma isSome_read?_iff {samples : Array Int16} {i : ℕ} :
    (read? samples i).isSome ↔ i + 1 < samples.size := by
  by_cases hi : i + 1 < samples.size
  · simp [read?_eq_some hi, hi]
  · simp [read?, hi]

lemma isSome_readBack?_iff {samples : Array Int16} {i : ℕ} :
    (readBack? samples i).isSome ↔ 0 < i ∧ i < samples.size := by
  by_cases hi : 0 < i ∧ i < samples.size
  · simp [readBack?_eq_some hi.1 hi.2, hi]
  · cases i with
    | zero => simp [readBack?]
    | succ i => simp [readBack?, show ¬ i + 1 < samples.size by omega]

end Packed

/-! ## Values -/

lemma valueAt_of_size_le (samples : Array Int16) {i : ℕ} (hi : samples.size ≤ i) :
    valueAt samples i = 0 := by
  simp [valueAt, Array.getD, Nat.not_lt.2 hi]

lemma valueAt_congr {s t : Array Int16} {i j : ℕ} (h : s[i]? = t[j]?) :
    valueAt s i = valueAt t j := by
  simp [valueAt, Array.getD_eq_getD_getElem?, h]

lemma valueAt_extract {samples : Array Int16} {start stop i : ℕ} (hi : i < stop - start) :
    valueAt (samples.extract start stop) i = valueAt samples (start + i) := by
  by_cases hs : start + i < samples.size
  · apply valueAt_congr
    rw [Array.getElem?_extract, if_pos (by omega)]
  · rw [valueAt_of_size_le _ (by simpa using by omega), valueAt_of_size_le _ (by omega)]

lemma valueAt_append_left {s : Array Int16} (t : Array Int16) {i : ℕ} (hi : i < s.size) :
    valueAt (s ++ t) i = valueAt s i :=
  valueAt_congr (Array.getElem?_append_left hi)

lemma valueAt_append_right {s : Array Int16} (t : Array Int16) {i : ℕ} (hi : s.size ≤ i) :
    valueAt (s ++ t) i = valueAt t (i - s.size) :=
  valueAt_congr (Array.getElem?_append_right hi)

lemma valueAt_replicate_zero (count i : ℕ) : valueAt (Array.replicate count 0) i = 0 := by
  by_cases hi : i < count
  · simp [valueAt, Array.getD, hi]
  · exact valueAt_of_size_le _ (by simpa using hi)

/-- Zeros on both sides read like the outside of the samples between them. -/
lemma valueAt_between_zeros (before after : ℕ) (samples : Array Int16) (i : ℕ) :
    valueAt (Array.replicate before 0 ++ samples ++ Array.replicate after 0) i =
      if i < before then 0 else valueAt samples (i - before) := by
  have hzeros : (Array.replicate before (0 : Int16)).size = before := Array.size_replicate
  have hleft : (Array.replicate before (0 : Int16) ++ samples).size = before + samples.size := by
    rw [Array.size_append, hzeros]
  split_ifs with hi
  · rw [valueAt_append_left _ (by omega), valueAt_append_left _ (by omega),
      valueAt_replicate_zero]
  · by_cases hsamples : i < before + samples.size
    · rw [valueAt_append_left _ (by omega), valueAt_append_right _ (by omega), hzeros]
    · rw [valueAt_append_right _ (by omega), valueAt_replicate_zero,
        valueAt_of_size_le samples (by omega)]

lemma valueAt_reverse {samples : Array Int16} {i : ℕ} (hi : i < samples.size) :
    valueAt samples.reverse i = valueAt samples (samples.size - 1 - i) :=
  valueAt_congr (Array.getElem?_reverse hi)

lemma valueAt_bounds (samples : Array Int16) (i : ℕ) :
    -2 ^ 15 ≤ valueAt samples i ∧ valueAt samples i < 2 ^ 15 :=
  ⟨Int16.le_toInt _, Int16.toInt_lt _⟩

lemma abs_valueAt_le (samples : Array Int16) (i : ℕ) : |valueAt samples i| ≤ 2 ^ 15 := by
  obtain ⟨hlow, hhigh⟩ := valueAt_bounds samples i
  exact abs_le.2 ⟨hlow, hhigh.le⟩

lemma abs_valueAt_mul_le (s t : Array Int16) (i j : ℕ) :
    |valueAt s i * valueAt t j| ≤ 2 ^ 30 := by
  calc
    |valueAt s i * valueAt t j| = |valueAt s i| * |valueAt t j| := abs_mul _ _
    _ ≤ 2 ^ 15 * 2 ^ 15 :=
      mul_le_mul (abs_valueAt_le s i) (abs_valueAt_le t j) (abs_nonneg _) (by norm_num)
    _ = 2 ^ 30 := by norm_num

end SignalCore
