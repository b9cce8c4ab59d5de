import SignalCore.Proofs.Fixed.Value
import Mathlib.Tactic.Positivity

/-!
# Samples scaled down

A kernel whose sums could grow too large is given operands that were shifted right first.  The
shift rounds down, so the lowest sample becomes a power of two below zero and no sample becomes
larger than that in size; a product of two samples that were both shifted by `bits` is at most
`4 ^ (15 - bits)` (`abs_valueAt_scaledDown_mul_le`), and one of which a single factor was shifted at
most `2 ^ (30 - bits)` (`abs_valueAt_mul_le_of_scaled`).
-/

namespace SignalCore

/-- A sample shifted right by `bits`, which divides it by `2 ^ bits` and rounds down. -/
def Q15.shiftRight (bits : ℕ) (sample : Int16) : Int16 :=
  Int16.ofInt (sample.toInt >>> bits)

lemma Q15.toInt_shiftRight (bits : ℕ) (sample : Int16) :
    (shiftRight bits sample).toInt = sample.toInt / 2 ^ bits := by
  have hpow : (1 : ℤ) ≤ 2 ^ bits := one_le_pow₀ (by norm_num)
  have hlow : -2 ^ 15 ≤ sample.toInt / 2 ^ bits := by
    refine Int.le_ediv_of_mul_le (by omega) ?_
    calc
      -2 ^ 15 * 2 ^ bits ≤ -2 ^ 15 * (1 : ℤ) := mul_le_mul_of_nonpos_left hpow (by norm_num)
      _ ≤ sample.toInt := sample.le_toInt
  have hhigh : sample.toInt / 2 ^ bits < 2 ^ 15 := by
    refine Int.ediv_lt_of_lt_mul (by omega) ?_
    calc
      sample.toInt < 2 ^ 15 * (1 : ℤ) := sample.toInt_lt
      _ ≤ 2 ^ 15 * 2 ^ bits := mul_le_mul_of_nonneg_left hpow (by norm_num)
  rw [shiftRight, Int.shiftRight_eq_div_pow]
  exact_mod_cast Int16.toInt_ofInt_of_le hlow hhigh

/-- Samples that are all shifted right by `bits`. -/
def scaledDown (bits : ℕ) (samples : Array Int16) : Array Int16 :=
  samples.map (Q15.shiftRight bits)

@[simp]
lemma size_scaledDown (bits : ℕ) (samples : Array Int16) :
    (scaledDown bits samples).size = samples.size :=
  Array.size_map

@[simp]
lemma scaledDown_zero (samples : Array Int16) : scaledDown 0 samples = samples := by
  have hsame : Q15.shiftRight 0 = id := by
    funext sample
    rw [← Int16.toInt_inj, Q15.toInt_shiftRight, pow_zero, Int.ediv_one, id]
  rw [scaledDown, hsame, Array.map_id]

lemma valueAt_scaledDown (bits : ℕ) (samples : Array Int16) (i : ℕ) :
    valueAt (scaledDown bits samples) i = valueAt samples i / 2 ^ bits := by
  by_cases hi : i < samples.size
  · simp [valueAt, scaledDown, Array.getD, hi, Q15.toInt_shiftRight]
  · rw [valueAt_of_size_le _ (by simpa using hi), valueAt_of_size_le _ (by omega), Int.zero_ediv]

/-- A shift right takes the size of a sample down with it. -/
lemma abs_ediv_two_pow_le {bits : ℕ} (hbits : bits ≤ 15) {v : ℤ} (hlow : -2 ^ 15 ≤ v)
    (hhigh : v < 2 ^ 15) : |v / 2 ^ bits| ≤ 2 ^ (15 - bits) := by
  have hpow : (0 : ℤ) < 2 ^ bits := by positivity
  -- the size of the lowest sample is a multiple of the divisor
  have hsize : (2 ^ (15 - bits) * 2 ^ bits : ℤ) = 2 ^ 15 := by
    rw [← pow_add, Nat.sub_add_cancel hbits]
  rw [abs_le]
  constructor
  · refine Int.le_ediv_of_mul_le hpow ?_
    rwa [neg_mul, hsize]
  · refine Int.ediv_le_of_le_mul hpow ?_
    rw [hsize]
    exact hhigh.le

lemma abs_valueAt_scaledDown_le {bits : ℕ} (hbits : bits ≤ 15) (samples : Array Int16) (i : ℕ) :
    |valueAt (scaledDown bits samples) i| ≤ 2 ^ (15 - bits) := by
  obtain ⟨hlow, hhigh⟩ := valueAt_bounds samples i
  rw [valueAt_scaledDown]
  exact abs_ediv_two_pow_le hbits hlow hhigh

lemma abs_valueAt_scaledDown_mul_le {bits : ℕ} (hbits : bits ≤ 15) (s t : Array Int16)
    (i j : ℕ) :
    |valueAt (scaledDown bits s) i * valueAt (scaledDown bits t) j| ≤ 4 ^ (15 - bits) := by
  calc
    |valueAt (scaledDown bits s) i * valueAt (scaledDown bits t) j| =
        |valueAt (scaledDown bits s) i| * |valueAt (scaledDown bits t) j| := abs_mul _ _
    _ ≤ 2 ^ (15 - bits) * 2 ^ (15 - bits) :=
      mul_le_mul (abs_valueAt_scaledDown_le hbits s i) (abs_valueAt_scaledDown_le hbits t j)
        (abs_nonneg _) (by positivity)
    _ = 4 ^ (15 - bits) := by rw [← mul_pow]; norm_num

/-! ## Buffers that hold scaled samples -/

/-- Each of the first `count` samples is some sample shifted right by `bits`. -/
def IsScaledDown (bits : ℕ) (samples : Array Int16) (count : ℕ) : Prop :=
  ∀ i < count, ∃ sample, samples.getD i 0 = Q15.shiftRight bits sample

lemma isScaledDown_scaledDown (bits : ℕ) (samples : Array Int16) :
    IsScaledDown bits (scaledDown bits samples) samples.size := by
  intro i hi
  exact ⟨samples.getD i 0, by simp [scaledDown, Array.getD, hi]⟩

lemma IsScaledDown.abs_valueAt_le {bits count i : ℕ} {samples : Array Int16}
    (h : IsScaledDown bits samples count) (hbits : bits ≤ 15) (hi : i < count) :
    |valueAt samples i| ≤ 2 ^ (15 - bits) := by
  obtain ⟨sample, hsample⟩ := h i hi
  rw [valueAt, hsample, Q15.toInt_shiftRight]
  exact abs_ediv_two_pow_le hbits sample.le_toInt sample.toInt_lt

/-- It is enough for the size of a product that one of its two factors is scaled down. -/
lemma abs_valueAt_mul_le_of_scaled {bits m n i j : ℕ} {s t : Array Int16}
    (h : IsScaledDown bits s m ∨ IsScaledDown bits t n) (hbits : bits ≤ 15) (hi : i < m)
    (hj : j < n) : |valueAt s i * valueAt t j| ≤ 2 ^ (30 - bits) := by
  have hsize : (2 ^ (15 - bits) * 2 ^ 15 : ℤ) = 2 ^ (30 - bits) := by
    rw [← pow_add]
    congr 1
    omega
  rw [abs_mul, ← hsize]
  rcases h with hs | ht
  · exact mul_le_mul (hs.abs_valueAt_le hbits hi) (abs_valueAt_le t j) (abs_nonneg _)
      (by positivity)
  · rw [mul_comm |valueAt s i|]
    exact mul_le_mul (ht.abs_valueAt_le hbits hj) (abs_valueAt_le s i) (abs_nonneg _)
      (by positivity)

lemma log2_le_fifteen {count : ℕ} (hcount : count ≤ 65535) : Nat.log2 count ≤ 15 := by
  by_cases hzero : count = 0
  · simp [hzero]
  · have := (Nat.log2_lt hzero).2 (by omega : count < 2 ^ 16)
    omega

/-- As many products as the shift is made for, each of the largest size, stay below `2 ^ 31`: the
logarithm is rounded down, and the one bit that this may lack is the sign's. -/
lemma mul_two_pow_log2_lt {count : ℕ} (hcount : count ≤ 65535) :
    (count * 2 ^ (30 - Nat.log2 count) : ℤ) < 2 ^ 31 := by
  have hlog := log2_le_fifteen hcount
  have hlt : (count : ℤ) < 2 ^ (Nat.log2 count + 1) := by exact_mod_cast Nat.lt_log2_self
  calc
    (count * 2 ^ (30 - Nat.log2 count) : ℤ) <
        2 ^ (Nat.log2 count + 1) * 2 ^ (30 - Nat.log2 count) :=
      mul_lt_mul_of_pos_right hlt (by positivity)
    _ = 2 ^ 31 := by
      rw [← pow_add]
      congr 1
      omega

end SignalCore
