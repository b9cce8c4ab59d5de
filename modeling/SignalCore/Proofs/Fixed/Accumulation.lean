import SignalCore.Fixed.Accumulator
import SignalCore.Proofs.Fixed.Value
import Mathlib.Algebra.BigOperators.Intervals
import Mathlib.Algebra.Order.BigOperators.Ring.Finset
import Mathlib.Tactic.Ring

/-!
# Sums of terms in any accumulator

`addTerms term first count sum` adds the terms at `first`, `first + 1`, … to an accumulator one
by one.  Every inner loop of the kernels comes down to it, whatever accumulator the loop runs in
and however many products it takes in one step; two loops that add the same terms in the same
order then agree in every accumulator, with nothing assumed about its addition.

What a sum comes to is a second matter.  In a `Lawful` accumulator addition is that of the
integers, seen through a cast, and `addTerms_cast` says that the sum is the cast of the exact one.
-/

namespace SignalCore.Accumulator

variable {A : Type} [Accumulator A]

/-- `sum` with the terms at `first`, …, `first + count - 1` added in this order. -/
def addTerms (term : ℕ → ℤ) : ℕ → ℕ → A → A
  | _, 0, sum => sum
  | first, count + 1, sum => addTerms term (first + 1) count (add sum (term first))

@[simp]
lemma addTerms_zero (term : ℕ → ℤ) (first : ℕ) (sum : A) : addTerms term first 0 sum = sum := rfl

lemma addTerms_succ (term : ℕ → ℤ) (first count : ℕ) (sum : A) :
    addTerms term first (count + 1) sum =
      addTerms term (first + 1) count (add sum (term first)) := rfl

/-- A step of two terms, as the loops over packed pairs take it. -/
lemma addTerms_add_two (term : ℕ → ℤ) (first count : ℕ) (sum : A) :
    addTerms term first (count + 2) sum =
      addTerms term (first + 2) count (add (add sum (term first)) (term (first + 1))) := rfl

lemma addTerms_add (term : ℕ → ℤ) (first m n : ℕ) (sum : A) :
    addTerms term first (m + n) sum =
      addTerms term (first + m) n (addTerms term first m sum) := by
  induction m generalizing first sum with
  | zero => simp
  | succ m ih =>
    rw [Nat.add_right_comm m 1 n, addTerms_succ, ih, addTerms_succ, Nat.add_right_comm first 1 m,
      Nat.add_assoc first m 1]

/-- Only the terms that are added matter, and only in their order. -/
lemma addTerms_congr {term term' : ℕ → ℤ} {first first' count : ℕ} (sum : A)
    (h : ∀ i < count, term (first + i) = term' (first' + i)) :
    addTerms term first count sum = addTerms term' first' count sum := by
  induction count generalizing first first' sum with
  | zero => rfl
  | succ count ih =>
    have hhead : term first = term' first' := h 0 (by omega)
    rw [addTerms_succ, addTerms_succ, hhead]
    refine ih _ fun i hi => ?_
    have htail := h (i + 1) (by omega)
    rwa [Nat.add_right_comm first 1 i, Nat.add_right_comm first' 1 i]

/-! ## Products of samples and of packed pairs -/

lemma mac_getD (sum : A) (x y : Array Int16) (i j : ℕ) :
    mac sum (x.getD i 0) (y.getD j 0) = add sum (valueAt x i * valueAt y j) := rfl

lemma dualMac_pairAt (sum : A) (x y : Array Int16) (i j : ℕ) :
    dualMac sum (Packed.pairAt x i) (Packed.pairAt y j) =
      add (add sum (valueAt x i * valueAt y j)) (valueAt x (i + 1) * valueAt y (j + 1)) := by
  simp only [dualMac, mac, Packed.pairAt, Packed.low_ofLanes, Packed.high_ofLanes, valueAt]

lemma dualMac_pairBackAt (sum : A) (x y : Array Int16) (i j : ℕ) :
    dualMac sum (Packed.pairAt x i) (Packed.pairBackAt y j) =
      add (add sum (valueAt x i * valueAt y j)) (valueAt x (i + 1) * valueAt y (j - 1)) := by
  simp only [dualMac, mac, Packed.pairAt, Packed.pairBackAt, Packed.low_ofLanes,
    Packed.high_ofLanes, valueAt]

lemma differenceMac_pairAt (sum : A) (x y : Array Int16) (i j : ℕ) :
    differenceMac sum (Packed.pairAt x i) (Packed.pairAt y j) =
      add (add sum (valueAt x i * valueAt y j)) (-(valueAt x (i + 1) * valueAt y (j + 1))) := by
  simp only [differenceMac, mac, Packed.pairAt, Packed.low_ofLanes, Packed.high_ofLanes, valueAt]

lemma crossMac_pairAt (sum : A) (x y : Array Int16) (i j : ℕ) :
    crossMac sum (Packed.pairAt x i) (Packed.pairAt y j) =
      add (add sum (valueAt x i * valueAt y (j + 1))) (valueAt x (i + 1) * valueAt y j) := by
  simp only [crossMac, mac, Packed.pairAt, Packed.low_ofLanes, Packed.high_ofLanes, valueAt]

/-! ## Accumulators that add like the integers -/

/-- An accumulator whose sums are images of exact ones. -/
class Lawful (A : Type) [Accumulator A] where
  /-- The sum that stands for an exact one. -/
  cast : ℤ → A
  zero_eq_cast : (zero : A) = cast 0
  add_cast : ∀ sum term : ℤ, add (cast sum) term = cast (sum + term)

instance : Lawful Int32 where
  cast := Int32.ofInt
  zero_eq_cast := rfl
  add_cast sum term := (Int32.ofInt_add sum term).symm

instance : Lawful Int64 where
  cast := Int64.ofInt
  zero_eq_cast := rfl
  add_cast sum term := (Int64.ofInt_add sum term).symm

instance : Lawful ℤ where
  cast := id
  zero_eq_cast := rfl
  add_cast _ _ := rfl

lemma addTerms_cast [Lawful A] (term : ℕ → ℤ) (first count : ℕ) (sum : ℤ) :
    addTerms term first count (Lawful.cast sum : A) =
      Lawful.cast (sum + ∑ i ∈ Finset.range count, term (first + i)) := by
  induction count generalizing first sum with
  | zero => simp
  | succ count ih =>
    rw [addTerms_succ, Lawful.add_cast, ih, Finset.sum_range_succ']
    simp only [Nat.add_right_comm first 1, Nat.add_zero, Nat.add_assoc first _ 1]
    congr 1
    ring

lemma addTerms_zero_eq_cast [Lawful A] (term : ℕ → ℤ) (first count : ℕ) :
    addTerms term first count (zero : A) =
      Lawful.cast (∑ i ∈ Finset.range count, term (first + i)) := by
  rw [Lawful.zero_eq_cast, addTerms_cast, zero_add]

/-- In a lawful accumulator two terms may be added as one. -/
lemma addTerms_two_mul [Lawful A] (term : ℕ → ℤ) (first count : ℕ) (sum : ℤ) :
    addTerms term first (2 * count) (Lawful.cast sum : A) =
      addTerms (fun k => term (first + 2 * k) + term (first + 2 * k + 1)) 0 count
        (Lawful.cast sum) := by
  induction count generalizing first sum with
  | zero => rfl
  | succ count ih =>
    rw [Nat.mul_succ, addTerms_add_two, Lawful.add_cast, Lawful.add_cast, ih, addTerms_succ,
      Lawful.add_cast, add_assoc sum]
    refine addTerms_congr _ fun k _ => ?_
    simp only [Nat.zero_add, Nat.mul_add, Nat.mul_one, Nat.add_assoc]

/-! ## The size of a sum -/

lemma abs_sum_le_card_mul {terms : Finset ℕ} {term : ℕ → ℤ} {bound : ℤ}
    (h : ∀ k ∈ terms, |term k| ≤ bound) : |∑ k ∈ terms, term k| ≤ terms.card * bound := by
  calc
    |∑ k ∈ terms, term k| ≤ ∑ k ∈ terms, |term k| := Finset.abs_sum_le_sum_abs _ _
    _ ≤ terms.card • bound := Finset.sum_le_card_nsmul _ _ _ h
    _ = terms.card * bound := nsmul_eq_mul _ _

end SignalCore.Accumulator
