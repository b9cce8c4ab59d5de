import SignalCore.Proofs.Fixed.Accumulation

/-!
# Everything that a sum has been through

An accumulator shows its last value only.  A `Ledger` is the accumulator that forgets nothing: it
keeps the terms in the order in which they were added, so a loop that is run in it leaves a record
of every single addition.  What the same loop holds in a fixed width after any number of additions
is read off the record (`after`), and so is what it holds in the end (`final_addTerms`).

A fixed-width sum may wrap on its way and come back.  `ExactIn` says that it does not: after each
addition the exact sum is in range and is what the accumulator holds.  It is enough to bound the
exact sums (`exactIn_of_within`), and those are bounded by the number of terms and their size
(`within_addTerms`).
-/

namespace SignalCore

open Accumulator

/-- The terms that have been added to a sum, the first one first. -/
structure Ledger where
  terms : List ℤ
deriving DecidableEq, Repr

instance : Accumulator Ledger where
  zero := ⟨[]⟩
  add ledger term := ⟨ledger.terms ++ [term]⟩

/-! ## Accumulators of a fixed width -/

/-- A lawful accumulator whose sums are read as integers, and are exact as long as they keep within
its range. -/
class FixedWidth (A : Type) [Accumulator A] extends Lawful A where
  toInt : A → ℤ
  /-- The least exact sum past the range, which starts at its negative. -/
  limit : ℤ
  toInt_cast : ∀ sum : ℤ, -limit ≤ sum → sum < limit → toInt (cast sum) = sum

instance : FixedWidth Int32 where
  toInt := Int32.toInt
  limit := 2 ^ 31
  toInt_cast _ hlow hhigh := Int32.toInt_ofInt_of_le hlow hhigh

instance : FixedWidth Int64 where
  toInt := Int64.toInt
  limit := 2 ^ 63
  toInt_cast _ hlow hhigh := Int64.toInt_ofInt_of_le hlow hhigh

namespace Ledger

variable {A : Type} [Accumulator A]

/-! ## Reading a ledger -/

/-- What an accumulator holds after the first `steps` additions. -/
def after (A : Type) [Accumulator A] (ledger : Ledger) (steps : ℕ) : A :=
  (ledger.terms.take steps).foldl add zero

/-- What an accumulator holds in the end. -/
def final (A : Type) [Accumulator A] (ledger : Ledger) : A :=
  ledger.after A ledger.terms.length

lemma terms_addTerms (term : ℕ → ℤ) (first count : ℕ) (ledger : Ledger) :
    (addTerms term first count ledger).terms =
      ledger.terms ++ (List.range' first count).map term := by
  induction count generalizing first ledger with
  | zero => simp
  | succ count ih => simp [addTerms_succ, ih, add, List.range'_succ]

lemma foldl_range' (term : ℕ → ℤ) (first count : ℕ) (sum : A) :
    ((List.range' first count).map term).foldl add sum = addTerms term first count sum := by
  induction count generalizing first sum with
  | zero => rfl
  | succ count ih => rw [List.range'_succ, List.map_cons, List.foldl_cons, ih, addTerms_succ]

lemma terms_addTerms_zero (term : ℕ → ℤ) (first count : ℕ) :
    (addTerms term first count (zero : Ledger)).terms = (List.range' first count).map term := by
  rw [terms_addTerms]
  rfl

/-- What holds of every term that a loop adds holds of every term of its ledger. -/
lemma forall_mem_terms_addTerms {property : ℤ → Prop} {term : ℕ → ℤ} {first count : ℕ}
    (h : ∀ i < count, property (term (first + i))) :
    ∀ t ∈ (addTerms term first count (zero : Ledger)).terms, property t := by
  intro t ht
  rw [terms_addTerms_zero] at ht
  obtain ⟨k, hk, rfl⟩ := List.mem_map.1 ht
  rw [List.mem_range'_1] at hk
  have hterm := h (k - first) (by omega)
  rwa [Nat.add_sub_cancel' hk.1] at hterm

lemma foldl_take_range' (term : ℕ → ℤ) (first count steps : ℕ) (sum : A) :
    (((List.range' first count).map term).take steps).foldl add sum =
      addTerms term first (min steps count) sum := by
  have htake : (List.range' first count).take steps = List.range' first (min steps count) := by
    apply List.ext_getElem <;> simp
  rw [← List.map_take, htake, foldl_range']

/-- A loop that is stopped early has added the terms up to there. -/
lemma after_addTerms (term : ℕ → ℤ) (first count steps : ℕ) :
    (addTerms term first count (zero : Ledger)).after A steps =
      addTerms term first (min steps count) zero := by
  rw [after, terms_addTerms_zero, foldl_take_range']

/-- **A ledger stands for its loop.**  Played back in any accumulator, it gives what the loop leaves
there. -/
lemma final_addTerms (term : ℕ → ℤ) (first count : ℕ) :
    (addTerms term first count (zero : Ledger)).final A = addTerms term first count zero := by
  rw [final, after_addTerms, terms_addTerms_zero, List.length_map, List.length_range',
    Nat.min_self]

/-! ## Exact sums -/

/-- After each addition the exact sum is within `bound` of zero. -/
def Within (bound : ℤ) (ledger : Ledger) : Prop :=
  ∀ steps, |ledger.after ℤ steps| ≤ bound

/-- After each addition the exact sum is in the range of `A`, and an accumulator in `A` holds it. -/
structure ExactIn (A : Type) [Accumulator A] [FixedWidth A] (ledger : Ledger) : Prop where
  low : ∀ steps, -FixedWidth.limit A ≤ ledger.after ℤ steps
  high : ∀ steps, ledger.after ℤ steps < FixedWidth.limit A
  toInt_after : ∀ steps, FixedWidth.toInt (ledger.after A steps) = ledger.after ℤ steps

lemma foldl_add_cast [Lawful A] (terms : List ℤ) (sum : ℤ) :
    terms.foldl add (Lawful.cast sum : A) = Lawful.cast (terms.foldl add sum) := by
  induction terms generalizing sum with
  | nil => rfl
  | cons term terms ih =>
    rw [List.foldl_cons, Lawful.add_cast, ih]
    rfl

lemma after_eq_cast [Lawful A] (ledger : Ledger) (steps : ℕ) :
    ledger.after A steps = Lawful.cast (ledger.after ℤ steps) := by
  rw [after, Lawful.zero_eq_cast, foldl_add_cast]
  rfl

/-- As long as the exact sums keep within the range, no addition wraps. -/
lemma exactIn_of_forall [FixedWidth A] {ledger : Ledger}
    (h : ∀ steps, -FixedWidth.limit A ≤ ledger.after ℤ steps ∧
      ledger.after ℤ steps < FixedWidth.limit A) : ledger.ExactIn A where
  low steps := (h steps).1
  high steps := (h steps).2
  toInt_after steps := by
    rw [after_eq_cast, FixedWidth.toInt_cast _ (h steps).1 (h steps).2]

lemma exactIn_of_within [FixedWidth A] {ledger : Ledger} {bound : ℤ} (h : ledger.Within bound)
    (hbound : bound < FixedWidth.limit A) : ledger.ExactIn A := by
  refine exactIn_of_forall fun steps => ?_
  obtain ⟨hlow, hhigh⟩ := abs_le.1 (h steps)
  constructor <;> omega

lemma within_addTerms {term : ℕ → ℤ} {first count : ℕ} {size : ℤ}
    (h : ∀ i < count, |term (first + i)| ≤ size) :
    (addTerms term first count (zero : Ledger)).Within (count * size) := by
  intro steps
  have hsum : (addTerms term first count (zero : Ledger)).after ℤ steps =
      ∑ i ∈ Finset.range (min steps count), term (first + i) := by
    rw [after_addTerms, addTerms_zero_eq_cast]
    rfl
  have hpart : Finset.range (min steps count) ⊆ Finset.range count :=
    Finset.range_subset_range.2 (Nat.min_le_right steps count)
  rw [hsum]
  calc
    |∑ i ∈ Finset.range (min steps count), term (first + i)| ≤
        ∑ i ∈ Finset.range (min steps count), |term (first + i)| :=
      Finset.abs_sum_le_sum_abs _ _
    _ ≤ ∑ i ∈ Finset.range count, |term (first + i)| :=
      Finset.sum_le_sum_of_subset_of_nonneg hpart fun _ _ _ => abs_nonneg _
    _ ≤ ∑ _i ∈ Finset.range count, size :=
      Finset.sum_le_sum fun i hi => h i (Finset.mem_range.1 hi)
    _ = count * size := by simp

lemma Within.mono {ledger : Ledger} {bound bound' : ℤ} (h : ledger.Within bound)
    (hle : bound ≤ bound') : ledger.Within bound' :=
  fun steps => (h steps).trans hle

end Ledger

end SignalCore
