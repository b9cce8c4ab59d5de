import SignalCore.Proofs.Fixed.DotProduct
import SignalCore.Proofs.Fixed.Ledger

/-!
# Two products in a step

A dot product may take its products one at a time or two at a time on packed pairs.  Both loops add
the same products in the same order, so they leave the same sum in every accumulator
(`dotPaired?_eq_some_dot`), and the ledgers of both are the same: the sum that they start from and
then each product once (`terms_dotLedger`).  As long as the exact sums keep within the range of the
accumulator, no addition wraps (`exactIn_dotLedger`).

The loop over pairs reads by index.  It finds every sample that it asks for just when the positions
of its products lie in both runs (`isSome_dotPairedFrom?_iff`), so a pair is never read across the
end of a run of odd length.
-/

namespace SignalCore

open Accumulator

variable {A : Type} [Accumulator A] {x y : Array Int16}

/-! ## Reads -/

lemma inRuns_of_dotPairedFrom? (count first : ℕ) (sum : A)
    (h : (dotPairedFrom? x y count first sum).isSome) :
    ∀ k, first ≤ k → k < first + count → k < x.size ∧ k < y.size := by
  fun_induction dotPairedFrom? x y count first sum with
  | case1 => intro k hk hlt; omega
  | case2 first sum =>
    simp only [Option.isSome_iff_exists, Option.bind_eq_bind, Option.bind_eq_some_iff] at h
    obtain ⟨total, a, ha, b, hb, -⟩ := h
    intro k hk hlt
    obtain rfl : k = first := by omega
    exact ⟨(Array.getElem?_eq_some_iff.1 ha).1, (Array.getElem?_eq_some_iff.1 hb).1⟩
  | case3 count first sum ih =>
    simp only [Option.isSome_iff_exists, Option.bind_eq_bind, Option.bind_eq_some_iff] at h ih
    obtain ⟨total, a, ha, b, hb, hrest⟩ := h
    have hx : first + 1 < x.size :=
      Packed.isSome_read?_iff.1 (Option.isSome_iff_exists.2 ⟨a, ha⟩)
    have hy : first + 1 < y.size :=
      Packed.isSome_read?_iff.1 (Option.isSome_iff_exists.2 ⟨b, hb⟩)
    intro k hk hlt
    by_cases hpair : k ≤ first + 1
    · omega
    · exact ih a b ⟨total, hrest⟩ k (by omega) (by omega)

/-- A loop over pairs finds its samples just when the positions of its products lie in both runs. -/
lemma isSome_dotPairedFrom?_iff {count first : ℕ} {sum : A} :
    (dotPairedFrom? x y count first sum).isSome ↔
      ∀ k, first ≤ k → k < first + count → k < x.size ∧ k < y.size := by
  constructor
  · exact inRuns_of_dotPairedFrom? count first sum
  · intro h
    obtain rfl | hpos := Nat.eq_zero_or_pos count
    · rfl
    · obtain ⟨hx, hy⟩ := h (first + count - 1) (by omega) (by omega)
      rw [dotPairedFrom?_eq_some count first sum (by omega) (by omega)]
      rfl

/-! ## Sums -/

/-- In any accumulator, whatever its addition does, both loops leave the same sum. -/
lemma dotPaired?_eq_some_dot (sum : A) (x y : Array Int16) :
    dotPaired? sum x y = some (dot sum x y) := by
  rw [dotPaired?_eq_some, dot_eq_dotTotal]

/-- The exact sum after the first `count` products. -/
def runningSum (start : ℤ) (x y : Array Int16) (count : ℕ) : ℤ :=
  start + ∑ k ∈ Finset.range count, dotTerm x y k

lemma dotTotal_cast [Lawful A] (start : ℤ) (x y : Array Int16) (count : ℕ) :
    dotTotal (Lawful.cast start : A) x y count = Lawful.cast (runningSum start x y count) := by
  rw [dotTotal, addTerms_cast, runningSum]
  simp only [Nat.zero_add]

lemma dot_cast [Lawful A] (start : ℤ) (hsize : x.size = y.size) :
    dot (Lawful.cast start : A) x y = Lawful.cast (runningSum start x y x.size) := by
  rw [dot_eq_dotTotal, ← hsize, Nat.min_self, dotTotal_cast]

/-! ## Additions -/

/-- The ledger of a dot product.  Its first entry is the sum that the product starts from. -/
def dotLedger (start : ℤ) (x y : Array Int16) : Ledger :=
  dot ⟨[start]⟩ x y

/-- Each product is added once, and in the order of its position. -/
lemma terms_dotLedger (start : ℤ) (hsize : x.size = y.size) :
    (dotLedger start x y).terms = start :: (List.range x.size).map (dotTerm x y) := by
  rw [dotLedger, dot_eq_dotTotal, dotTotal, Ledger.terms_addTerms, ← hsize, Nat.min_self,
    List.range_eq_range', List.singleton_append]

/-- What an accumulator holds once the first sum is in and `steps` products have been added. -/
lemma after_dotLedger (start : ℤ) (hsize : x.size = y.size) (steps : ℕ) :
    (dotLedger start x y).after A (steps + 1) =
      dotTotal (add zero start) x y (min steps x.size) := by
  rw [Ledger.after, terms_dotLedger start hsize, List.take_succ_cons, List.foldl_cons,
    List.range_eq_range', Ledger.foldl_take_range', dotTotal]

lemma after_dotLedger_int (start : ℤ) (hsize : x.size = y.size) (steps : ℕ) :
    (dotLedger start x y).after ℤ (steps + 1) = runningSum start x y (min steps x.size) := by
  have hstart : (add zero start : ℤ) = Lawful.cast start := zero_add start
  rw [after_dotLedger start hsize, hstart, dotTotal_cast]
  rfl

/-- No addition wraps as long as the running sums keep within the range of the accumulator. -/
lemma exactIn_dotLedger [FixedWidth A] {start : ℤ} (hsize : x.size = y.size)
    (h : ∀ n ≤ x.size, -FixedWidth.limit A ≤ runningSum start x y n ∧
      runningSum start x y n < FixedWidth.limit A) :
    (dotLedger start x y).ExactIn A := by
  refine Ledger.exactIn_of_forall fun steps => ?_
  cases steps with
  | zero =>
    -- a range that holds the first sum holds the empty one as well
    have hempty : (dotLedger start x y).after ℤ 0 = 0 := rfl
    obtain ⟨hlow, hhigh⟩ := h 0 (Nat.zero_le _)
    rw [hempty]
    constructor <;> omega
  | succ steps =>
    rw [after_dotLedger_int start hsize]
    exact h _ (Nat.min_le_right _ _)

/-! ## Both loops -/

/-- **Two products in a step leave the sum of one product in a step.**  Take two runs of equal
length and any sum to start from.  In 32 bits both loops leave the same sum with all its bits, which
is the exact one modulo `2 ^ 32`.  In 64 bits they leave the exact sum if the running sums are in
range, and then none of their additions wraps.  Either loop adds each product once, also the last
one of an odd number, and the loop over pairs fails on positions outside a run and on no others. -/
theorem paired_dot_eq_dot (x y : Array Int16) (hsize : x.size = y.size) :
    (∀ sum : Int32, dotPaired? sum x y = some (dot sum x y) ∧
      dot sum x y = Int32.ofInt (runningSum sum.toInt x y x.size)) ∧
    (∀ sum : Int64,
      (∀ n ≤ x.size, -2 ^ 63 ≤ runningSum sum.toInt x y n ∧
        runningSum sum.toInt x y n < 2 ^ 63) →
      dotPaired? sum x y = some (dot sum x y) ∧
        (dot sum x y).toInt = runningSum sum.toInt x y x.size ∧
        (dotLedger sum.toInt x y).ExactIn Int64) ∧
    (∀ start : ℤ, dotPaired? ⟨[start]⟩ x y = some (dotLedger start x y) ∧
      (dotLedger start x y).terms = start :: (List.range x.size).map (dotTerm x y)) ∧
    ∀ (A : Type) [Accumulator A] (sum : A) (count first : ℕ),
      (dotPairedFrom? x y count first sum).isSome ↔
        ∀ k, first ≤ k → k < first + count → k < x.size ∧ k < y.size := by
  refine ⟨?_, ?_, ?_, ?_⟩
  · intro sum
    refine ⟨dotPaired?_eq_some_dot sum x y, ?_⟩
    have hdot : dot (Int32.ofInt sum.toInt) x y =
        Int32.ofInt (runningSum sum.toInt x y x.size) := dot_cast sum.toInt hsize
    rwa [Int32.ofInt_toInt] at hdot
  · intro sum hrange
    obtain ⟨hlow, hhigh⟩ := hrange x.size le_rfl
    have hdot : dot (Int64.ofInt sum.toInt) x y =
        Int64.ofInt (runningSum sum.toInt x y x.size) := dot_cast sum.toInt hsize
    rw [Int64.ofInt_toInt] at hdot
    refine ⟨dotPaired?_eq_some_dot sum x y, ?_, exactIn_dotLedger hsize hrange⟩
    rw [hdot, Int64.toInt_ofInt_of_le hlow hhigh]
  · intro start
    exact ⟨dotPaired?_eq_some_dot _ x y, terms_dotLedger start hsize⟩
  · intro A _ sum count first
    exact isSome_dotPairedFrom?_iff

/-- Three products: in 32 bits the sum wraps, and in 64 bits it comes to the largest number there
is. -/
theorem paired_dot_eq_dot_up_to_limit :
    let x : Array Int16 := #[-32768, -32768, 3]
    let y : Array Int16 := #[-32768, -32768, 5]
    let start : Int64 := 9223372034707292144
    dotPaired? (0 : Int32) x y = some (-2147483633) ∧
      dotPaired? start x y = some 9223372036854775807 ∧
      (dotLedger start.toInt x y).ExactIn Int64 ∧
      (dotLedger start.toInt x y).terms = [9223372034707292144, 2 ^ 30, 2 ^ 30, 15] := by
  intro x y start
  obtain ⟨hwrapped, hexact, hledger, -⟩ := paired_dot_eq_dot x y rfl
  obtain ⟨hpaired, hvalue⟩ := hwrapped 0
  obtain ⟨hpaired', hvalue', hadditions⟩ := hexact start (by decide)
  refine ⟨?_, ?_, hadditions, (hledger start.toInt).2.trans (by decide)⟩
  · rw [hpaired, hvalue]
    decide
  · rw [hpaired', ← Int64.ofInt_toInt (dot start x y), hvalue']
    decide

end SignalCore
