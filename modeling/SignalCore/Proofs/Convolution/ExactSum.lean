import SignalCore.Convolution.Basic
import SignalCore.Proofs.Fixed.Accumulation
import Mathlib.Algebra.BigOperators.NatAntidiagonal

/-!
# The exact sums of a convolution

Output `n` of the convolution of `a` and `b` stands for `exactSum a b n`, the sum of
`a[k] * b[n - k]` over all positions `k` at which both samples exist.  These positions, the taps
of the output, are an interval, and `outputSum` adds their products in ascending order in any
accumulator; in a lawful one it is the cast of the exact sum (`outputSum_eq_cast`).  Written over
the antidiagonal, with zeros outside both operands, the sum is seen to be symmetric
(`exactSum_comm`).
-/

namespace SignalCore.Convolution

open Accumulator Finset

/-! ## Taps -/

/-- Position `k` contributes to output `n`: both samples of its product exist. -/
def IsTap (x y : Array Int16) (n k : ℕ) : Prop :=
  k < x.size ∧ k ≤ n ∧ n - k < y.size

instance (x y : Array Int16) (n k : ℕ) : Decidable (IsTap x y n k) :=
  inferInstanceAs (Decidable (_ ∧ _ ∧ _))

/-- The product that position `k` contributes to output `n`. -/
def tapProduct (x y : Array Int16) (n k : ℕ) : ℤ :=
  valueAt x k * valueAt y (n - k)

/-- The sum of `a[k] * b[n - k]` over all `k` at which both samples exist. -/
def exactSum (a b : Array Int16) (n : ℕ) : ℤ :=
  ∑ k ∈ range a.size with k ≤ n ∧ n - k < b.size, valueAt a k * valueAt b (n - k)

lemma isTap_iff {x y : Array Int16} {n k : ℕ} :
    IsTap x y n k ↔ n + 1 - y.size ≤ k ∧ k < min x.size (n + 1) := by
  unfold IsTap
  omega

lemma exactSum_eq_sum_Ico (x y : Array Int16) (n : ℕ) :
    exactSum x y n = ∑ k ∈ Ico (n + 1 - y.size) (min x.size (n + 1)), tapProduct x y n k := by
  refine sum_congr ?_ fun _ _ => rfl
  ext k
  rw [mem_filter, mem_range, mem_Ico]
  exact isTap_iff

/-! ## Sums over the taps -/

section Output

variable {A : Type} [Accumulator A]

/-- The sum of output `n`, its taps in ascending order. -/
def outputSum (x y : Array Int16) (n : ℕ) : A :=
  addTerms (tapProduct x y n) (n + 1 - y.size) (min x.size (n + 1) - (n + 1 - y.size)) zero

lemma outputSum_eq_cast [Lawful A] (x y : Array Int16) (n : ℕ) :
    (outputSum x y n : A) = Lawful.cast (exactSum x y n) := by
  rw [outputSum, addTerms_zero_eq_cast, exactSum_eq_sum_Ico, sum_Ico_eq_sum_range]

end Output

/-! ## Symmetry and size -/

/-- With zeros outside both operands, the sum runs over all ways to split `n`. -/
lemma exactSum_eq_sum_antidiagonal (a b : Array Int16) (n : ℕ) :
    exactSum a b n = ∑ p ∈ antidiagonal n, valueAt a p.1 * valueAt b p.2 := by
  rw [Nat.sum_antidiagonal_eq_sum_range_succ_mk, exactSum]
  refine sum_subset ?_ ?_
  · intro k hk
    simp only [mem_filter, mem_range] at hk ⊢
    omega
  · intro k hk hnot
    simp only [mem_filter, mem_range] at hk hnot
    by_cases ha : k < a.size
    · rw [valueAt_of_size_le b (by omega), mul_zero]
    · rw [valueAt_of_size_le a (by omega), zero_mul]

lemma exactSum_comm (a b : Array Int16) (n : ℕ) : exactSum a b n = exactSum b a n := by
  rw [exactSum_eq_sum_antidiagonal, exactSum_eq_sum_antidiagonal, ← Nat.sum_antidiagonal_swap]
  exact sum_congr rfl fun p _ => mul_comm _ _

/-- An output has no more taps than either operand has samples. -/
lemma abs_exactSum_le_mul {a b : Array Int16} {bound : ℤ}
    (h : ∀ i j, |valueAt a i * valueAt b j| ≤ bound) (n : ℕ) :
    |exactSum a b n| ≤ (min a.size b.size : ℕ) * bound := by
  have hbound : 0 ≤ bound := (abs_nonneg _).trans (h 0 0)
  have hcard : (Ico (n + 1 - b.size) (min a.size (n + 1))).card ≤ min a.size b.size := by
    rw [Nat.card_Ico]
    omega
  rw [exactSum_eq_sum_Ico]
  calc
    |∑ k ∈ Ico (n + 1 - b.size) (min a.size (n + 1)), tapProduct a b n k| ≤
        (Ico (n + 1 - b.size) (min a.size (n + 1))).card * bound :=
      abs_sum_le_card_mul fun k _ => h k (n - k)
    _ ≤ (min a.size b.size : ℕ) * bound :=
      mul_le_mul_of_nonneg_right (by exact_mod_cast hcard) hbound

lemma abs_exactSum_le (a b : Array Int16) (n : ℕ) : |exactSum a b n| ≤ b.size * 2 ^ 30 := by
  have hmin : ((min a.size b.size : ℕ) : ℤ) ≤ b.size := by exact_mod_cast Nat.min_le_right _ _
  calc
    |exactSum a b n| ≤ (min a.size b.size : ℕ) * 2 ^ 30 :=
      abs_exactSum_le_mul (abs_valueAt_mul_le a b) n
    _ ≤ b.size * 2 ^ 30 := mul_le_mul_of_nonneg_right hmin (by norm_num)

/-- Against a single sample, an output is one product. -/
lemma exactSum_of_size_eq_one {x y : Array Int16} (hy : y.size = 1) {n : ℕ} (hn : n < x.size) :
    exactSum x y n = valueAt x n * valueAt y 0 := by
  have hlast : min x.size (n + 1) = n + 1 := Nat.min_eq_right hn
  rw [exactSum_eq_sum_Ico, hy, hlast, Nat.add_sub_cancel, Nat.Ico_succ_singleton, sum_singleton,
    tapProduct, Nat.sub_self]

/-! ## Operand order -/

/-- The longer of two operands, and the first of two that are equally long. -/
def longer (a b : Array Int16) : Array Int16 :=
  if b.size ≤ a.size then a else b

/-- The other one of two operands. -/
def shorter (a b : Array Int16) : Array Int16 :=
  if b.size ≤ a.size then b else a

lemma byLength_eq (a b : Array Int16) : byLength a b = (longer a b, shorter a b) := by
  unfold byLength longer shorter
  split_ifs <;> rfl

lemma size_longer (a b : Array Int16) : (longer a b).size = max a.size b.size := by
  unfold longer
  split_ifs <;> omega

lemma size_shorter (a b : Array Int16) : (shorter a b).size = min a.size b.size := by
  unfold shorter
  split_ifs <;> omega

lemma exactSum_longer_shorter (a b : Array Int16) (n : ℕ) :
    exactSum (longer a b) (shorter a b) n = exactSum a b n := by
  unfold longer shorter
  split_ifs
  · rfl
  · exact exactSum_comm b a n

lemma outputLength_of_pos {a b : ℕ} (ha : 0 < a) (hb : 0 < b) : outputLength a b = a + b - 1 :=
  if_neg (by omega)

lemma outputLength_of_empty {a b : ℕ} (h : a = 0 ∨ b = 0) : outputLength a b = 0 :=
  if_pos h

end SignalCore.Convolution
