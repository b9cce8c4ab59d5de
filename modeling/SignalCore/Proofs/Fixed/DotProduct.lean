import SignalCore.Fixed.DotProduct
import SignalCore.Proofs.Fixed.Accumulation

/-!
# The terms of a dot product

Both ways to take a dot product add the same terms in the same order: `dot_eq_dotTotal` for one
product at a time, `dotPaired?_eq_some` for two, which also says that no read leaves the runs.
-/

namespace SignalCore

open Accumulator

variable {A : Type} [Accumulator A]

/-- The product of the samples at `k`. -/
def dotTerm (x y : Array Int16) (k : ℕ) : ℤ :=
  valueAt x k * valueAt y k

/-- The dot product of two runs, taken over any part on which both are defined. -/
def dotTotal (sum : A) (x y : Array Int16) (count : ℕ) : A :=
  addTerms (dotTerm x y) 0 count sum

/-! ## One product at a time -/

private lemma foldl_zip_eq_addTerms (xs ys : List Int16) (sum : A) :
    (xs.zip ys).foldl (fun sum pair => mac sum pair.1 pair.2) sum =
      addTerms (fun k => (xs.getD k 0).toInt * (ys.getD k 0).toInt) 0
        (min xs.length ys.length) sum := by
  induction xs generalizing ys sum with
  | nil => simp
  | cons a xs ih =>
    cases ys with
    | nil => simp
    | cons b ys =>
      rw [List.zip_cons_cons, List.foldl_cons, ih, List.length_cons, List.length_cons,
        Nat.succ_min_succ, addTerms_succ]
      refine addTerms_congr _ fun i _ => ?_
      rw [Nat.zero_add, Nat.zero_add, Nat.add_comm 1 i, List.getD_cons_succ, List.getD_cons_succ]

lemma dot_eq_dotTotal (sum : A) (x y : Array Int16) :
    dot sum x y = dotTotal sum x y (min x.size y.size) := by
  rw [dot, foldl_zip_eq_addTerms, Array.length_toList, Array.length_toList, dotTotal]
  refine addTerms_congr _ fun i _ => ?_
  simp [dotTerm, valueAt, Array.getD_eq_getD_getElem?]

/-! ## Two products at a time -/

lemma dotPairedFrom?_eq_some {x y : Array Int16} (count i : ℕ) (sum : A)
    (hx : i + count ≤ x.size) (hy : i + count ≤ y.size) :
    dotPairedFrom? x y count i sum = some (addTerms (dotTerm x y) i count sum) := by
  fun_induction dotPairedFrom? x y count i sum with
  | case1 => rfl
  | case2 i sum =>
    rw [getElem?_eq_some_getD (by omega), getElem?_eq_some_getD (by omega)]
    rfl
  | case3 count i sum ih =>
    rw [Packed.read?_eq_some (by omega), Packed.read?_eq_some (by omega)]
    simp only [Option.bind_eq_bind, Option.bind_some]
    rw [ih _ _ (by omega) (by omega), dualMac_pairAt, addTerms_add_two]
    rfl

lemma dotPaired?_eq_some (sum : A) (x y : Array Int16) :
    dotPaired? sum x y = some (dotTotal sum x y (min x.size y.size)) :=
  dotPairedFrom?_eq_some _ _ _ (by omega) (by omega)

lemma dot?_eq_some (lanes : Lanes) (sum : A) (x y : Array Int16) :
    dot? lanes sum x y = some (dotTotal sum x y (min x.size y.size)) := by
  cases lanes with
  | one => exact congrArg some (dot_eq_dotTotal sum x y)
  | two => exact dotPaired?_eq_some sum x y

end SignalCore
