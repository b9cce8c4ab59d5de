import SignalCore.Fixed.Basic
import Mathlib.Data.Int.ModEq

/-!
# What a finished sum is

The sample for a 32-bit sum is the one congruent modulo `2 ^ 16` to the exact sum with its
fraction bits shifted out, even where the sum itself has wrapped: the bits that a wrapped sum
gets wrong are above the ones that the sample keeps (`finishWrapping_ofInt`,
`ofInt_eq_iff_modEq`).  The sample for a 64-bit sum that has not wrapped is the exact sum without
its fraction bits, held at the rails (`finishSaturating_ofInt`, `toInt_saturate`).

The two samples are the same in the range of a sample and hardly anywhere else
(`ofInt_eq_saturate_iff`).
-/

namespace SignalCore.Q15

/-! ## Wrapping -/

/-- The sample for an integer is the only one congruent to it. -/
lemma ofInt_eq_iff_modEq (v : ℤ) (sample : Int16) :
    Int16.ofInt v = sample ↔ sample.toInt ≡ v [ZMOD 2 ^ 16] := by
  constructor
  · rintro rfl
    rw [Int16.toInt_ofInt]
    exact Int.bmod_emod
  · intro h
    rw [Int16.ofInt_eq_iff_bmod_eq_toInt, ← sample.toInt_bmod_size]
    rw [← Int.emod_bmod, ← Int.emod_bmod sample.toInt]
    exact congrArg (Int.bmod · Int16.size) h.symm

lemma div_modEq_of_modEq {v w : ℤ} (h : v ≡ w [ZMOD 2 ^ 32]) :
    v / 2 ^ 15 ≡ w / 2 ^ 15 [ZMOD 2 ^ 16] := by
  rw [Int.ModEq] at h ⊢
  omega

/-- Wrapping a sum to 32 bits does not change its sample. -/
lemma finishWrapping_ofInt (sum : ℤ) :
    finishWrapping (Int32.ofInt sum) = Int16.ofInt (sum / 2 ^ 15) := by
  have hwrap : (Int32.ofInt sum).toInt ≡ sum [ZMOD 2 ^ 32] := by
    rw [Int32.toInt_ofInt]
    exact Int.bmod_emod
  rw [finishWrapping, Int.shiftRight_eq_div_pow, ofInt_eq_iff_modEq]
  calc
    (Int16.ofInt (sum / 2 ^ 15)).toInt ≡ sum / 2 ^ 15 [ZMOD 2 ^ 16] :=
      (ofInt_eq_iff_modEq _ _).1 rfl
    _ ≡ (Int32.ofInt sum).toInt / 2 ^ 15 [ZMOD 2 ^ 16] := (div_modEq_of_modEq hwrap).symm

/-! ## Saturating -/

lemma toInt_saturate (v : ℤ) : (saturate v).toInt = max (-32768) (min v 32767) := by
  have hlow : minimum.toInt = -32768 := rfl
  have hhigh : maximum.toInt = 32767 := rfl
  have hclip : clip v minimum.toInt maximum.toInt = max (-32768) (min v 32767) := by
    rw [clip, hlow, hhigh]
    split_ifs <;> omega
  rw [saturate, hclip, Int16.toInt_ofInt_of_le (by omega) (by omega)]

/-- A 64-bit sum that has not wrapped is finished as the exact sum. -/
lemma finishSaturating_ofInt {sum : ℤ} (hlow : -2 ^ 63 ≤ sum) (hhigh : sum < 2 ^ 63) :
    finishSaturating (Int64.ofInt sum) = saturate (sum / 2 ^ 15) := by
  rw [finishSaturating, Int64.toInt_ofInt_of_le hlow hhigh, Int.shiftRight_eq_div_pow]
  rfl

/-! ## Where both finishes agree -/

/-- Both finishes give one sample for the integers in the range of a sample and, beyond a rail, for
those congruent to the rail. -/
lemma ofInt_eq_saturate_iff (v : ℤ) :
    Int16.ofInt v = saturate v ↔
      (-32768 ≤ v ∧ v ≤ 32767) ∨ (32767 < v ∧ v ≡ 32767 [ZMOD 2 ^ 16]) ∨
        (v < -32768 ∧ v ≡ -32768 [ZMOD 2 ^ 16]) := by
  rw [ofInt_eq_iff_modEq, toInt_saturate, Int.ModEq, Int.ModEq, Int.ModEq]
  omega

lemma ofInt_eq_saturate {v : ℤ} (hlow : -32768 ≤ v) (hhigh : v ≤ 32767) :
    Int16.ofInt v = saturate v :=
  (ofInt_eq_saturate_iff v).2 (.inl ⟨hlow, hhigh⟩)

end SignalCore.Q15
