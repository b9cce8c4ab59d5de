import SignalCore.Matrix.Complex
import SignalCore.Proofs.Fixed.Accumulation

/-!
# Complex dot products

One complex product adds two real ones to each part of a sum.  Taken one element at a time the two
are added as one term (`complexDot_eq`), on packed elements one after the other
(`complexDotPairedFrom?_eq_some`), so `complexTotal` tells the widths apart; in a lawful accumulator
both are the cast of the exact sum (`complexTotal_eq_cast`).
-/

namespace SignalCore.Matrix

open Accumulator

variable {A : Type} [Accumulator A]

/-! ## Products of elements -/

/-- The real part of the product of element `i` of one run and element `j` of another. -/
def reProduct (x y : Array Int16) (i j : ℕ) : ℤ :=
  valueAt x (2 * i) * valueAt y (2 * j) - valueAt x (2 * i + 1) * valueAt y (2 * j + 1)

/-- The imaginary part of the product of element `i` of one run and element `j` of another. -/
def imProduct (x y : Array Int16) (i j : ℕ) : ℤ :=
  valueAt x (2 * i) * valueAt y (2 * j + 1) + valueAt x (2 * i + 1) * valueAt y (2 * j)

lemma abs_reProduct_le (x y : Array Int16) (i j : ℕ) : |reProduct x y i j| ≤ 2 ^ 31 := by
  have hre := abs_valueAt_mul_le x y (2 * i) (2 * j)
  have him := abs_valueAt_mul_le x y (2 * i + 1) (2 * j + 1)
  rw [abs_le] at hre him ⊢
  unfold reProduct
  omega

lemma abs_imProduct_le (x y : Array Int16) (i j : ℕ) : |imProduct x y i j| ≤ 2 ^ 31 := by
  have hfirst := abs_valueAt_mul_le x y (2 * i) (2 * j + 1)
  have hsecond := abs_valueAt_mul_le x y (2 * i + 1) (2 * j)
  rw [abs_le] at hfirst hsecond ⊢
  unfold imProduct
  omega

/-- Element `i` of one run and element `j` of another are the same complex number. -/
def SameElement (x : Array Int16) (i : ℕ) (y : Array Int16) (j : ℕ) : Prop :=
  valueAt x (2 * i) = valueAt y (2 * j) ∧ valueAt x (2 * i + 1) = valueAt y (2 * j + 1)

/-- A number made of two elements that depends on nothing but the elements. -/
def OfElements (product : Array Int16 → Array Int16 → ℕ → ℕ → ℤ) : Prop :=
  ∀ ⦃x x' y y' : Array Int16⦄ ⦃i i' j j' : ℕ⦄, SameElement x i x' i' → SameElement y j y' j' →
    product x y i j = product x' y' i' j'

lemma ofElements_reProduct : OfElements reProduct := by
  intro x x' y y' i i' j j' hx hy
  rw [reProduct, hx.1, hx.2, hy.1, hy.2, reProduct]

lemma ofElements_imProduct : OfElements imProduct := by
  intro x x' y y' i i' j j' hx hy
  rw [imProduct, hx.1, hx.2, hy.1, hy.2, imProduct]

lemma sameElement_extract (x : Array Int16) (start : ℕ) {count k : ℕ} (hk : k < count) :
    SameElement (x.extract (2 * start) (2 * start + 2 * count)) k x (start + k) := by
  constructor
  · rw [valueAt_extract (by omega), Nat.mul_add]
  · rw [valueAt_extract (by omega), Nat.mul_add, Nat.add_assoc]

lemma sameElement_extract_zero (x : Array Int16) {count k : ℕ} (hk : k < count) :
    SameElement (x.extract 0 (2 * count)) k x k := by
  simpa using sameElement_extract x 0 hk

/-! ## The terms of a part -/

/-- What sample `i` of the left run adds to the real part: its product with the sample beside it,
taken off for an imaginary one. -/
def reTerm (x y : Array Int16) (i : ℕ) : ℤ :=
  if i % 2 = 0 then valueAt x i * valueAt y i else -(valueAt x i * valueAt y i)

/-- What sample `i` of the left run adds to the imaginary part: its product with the other part of
the element beside it. -/
def imTerm (x y : Array Int16) (i : ℕ) : ℤ :=
  if i % 2 = 0 then valueAt x i * valueAt y (i + 1) else valueAt x i * valueAt y (i - 1)

lemma reTerm_add_reTerm (x y : Array Int16) (k : ℕ) :
    reTerm x y (2 * k) + reTerm x y (2 * k + 1) = reProduct x y k k := by
  rw [reTerm, reTerm, if_pos (by omega), if_neg (by omega), reProduct, sub_eq_add_neg]

lemma imTerm_add_imTerm (x y : Array Int16) (k : ℕ) :
    imTerm x y (2 * k) + imTerm x y (2 * k + 1) = imProduct x y k k := by
  rw [imTerm, imTerm, if_pos (by omega), if_neg (by omega), imProduct, Nat.add_sub_cancel]

/-! ## The loops -/

lemma complexDot_eq (xs ys : List Int16) (count : ℕ) (sum : ComplexSum A)
    (hxs : xs.length = 2 * count) (hys : ys.length = 2 * count) :
    complexDot sum xs ys =
      { re := addTerms (fun k => reProduct xs.toArray ys.toArray k k) 0 count sum.re
        im := addTerms (fun k => imProduct xs.toArray ys.toArray k k) 0 count sum.im } := by
  fun_induction complexDot sum xs ys generalizing count with
  | case1 sum xr xi xs yr yi ys ih =>
    obtain ⟨count, rfl⟩ : ∃ c, count = c + 1 := ⟨count - 1, by simp at hxs; omega⟩
    rw [ih count (by simp at hxs; omega) (by simp at hys; omega), addTerms_succ, addTerms_succ]
    -- element `k` of the rest is element `k + 1` of the whole
    have hshift : ∀ (a b : Int16) (zs : List Int16) (i : ℕ),
        valueAt (a :: b :: zs).toArray (i + 2) = valueAt zs.toArray i := by
      intro a b zs i
      apply valueAt_congr
      simp
    congr 1
    · refine addTerms_congr _ fun k _ => ?_
      simp only [reProduct, Nat.zero_add, Nat.add_comm 1 k, Nat.mul_succ, Nat.add_right_comm _ 2 1,
        hshift]
    · refine addTerms_congr _ fun k _ => ?_
      simp only [imProduct, Nat.zero_add, Nat.add_comm 1 k, Nat.mul_succ, Nat.add_right_comm _ 2 1,
        hshift]
  | case2 xs sum ys hshort =>
    have hcount : count = 0 := by
      by_contra hne
      obtain ⟨xr, xi, xs, rfl⟩ : ∃ a b zs, xs = a :: b :: zs := by
        rcases xs with _ | ⟨a, _ | ⟨b, zs⟩⟩ <;> simp at hxs ⊢ <;> omega
      obtain ⟨yr, yi, ys, rfl⟩ : ∃ a b zs, ys = a :: b :: zs := by
        rcases ys with _ | ⟨a, _ | ⟨b, zs⟩⟩ <;> simp at hys ⊢ <;> omega
      exact hshort _ _ _ _ _ _ rfl rfl
    rw [hcount]
    rfl

lemma complexDotPairedFrom?_eq_some {x y : Array Int16} (count k : ℕ) (sum : ComplexSum A)
    (hx : 2 * (k + count) ≤ x.size) (hy : 2 * (k + count) ≤ y.size) :
    complexDotPairedFrom? x y count k sum =
      some
        { re := addTerms (reTerm x y) (2 * k) (2 * count) sum.re
          im := addTerms (imTerm x y) (2 * k) (2 * count) sum.im } := by
  fun_induction complexDotPairedFrom? x y count k sum with
  | case1 => rfl
  | case2 count k sum ih =>
    have heven : 2 * k % 2 = 0 := by omega
    have hodd : ¬ (2 * k + 1) % 2 = 0 := by omega
    rw [Packed.read?_eq_some (by omega), Packed.read?_eq_some (by omega)]
    simp only [Option.bind_eq_bind, Option.bind_some]
    rw [ih _ _ (by omega) (by omega)]
    simp only [differenceMac_pairAt, crossMac_pairAt, Nat.mul_succ, addTerms_add_two, reTerm,
      imTerm, heven, hodd, if_true, if_false, Nat.add_sub_cancel]

/-- The complex dot product of two runs of `inner` elements, each part with the terms that the
loops of the given width add to it. -/
def complexTotal (lanes : Lanes) (inner : ℕ) (x y : Array Int16) : ComplexSum A :=
  match lanes with
  | .one =>
    { re := addTerms (fun k => reProduct x y k k) 0 inner zero
      im := addTerms (fun k => imProduct x y k k) 0 inner zero }
  | .two =>
    { re := addTerms (reTerm x y) 0 (2 * inner) zero
      im := addTerms (imTerm x y) 0 (2 * inner) zero }

lemma complexDot?_eq_some (lanes : Lanes) {inner : ℕ} {x y : Array Int16}
    (hx : x.size = 2 * inner) (hy : y.size = 2 * inner) :
    complexDot? lanes inner x y = some (complexTotal lanes inner x y : ComplexSum A) := by
  cases lanes with
  | one =>
    rw [complexDot?, complexDot_eq _ _ inner _ (by simpa) (by simpa)]
    rfl
  | two =>
    rw [complexDot?, complexDotPairedFrom?_eq_some _ _ _ (by omega) (by omega)]
    rfl

/-- In either width the total is the cast of the exact one. -/
lemma complexTotal_eq_cast [Lawful A] (lanes : Lanes) (inner : ℕ) (x y : Array Int16) :
    complexTotal lanes inner x y =
      { re := (Lawful.cast (∑ k ∈ Finset.range inner, reProduct x y k k) : A)
        im := Lawful.cast (∑ k ∈ Finset.range inner, imProduct x y k k) } := by
  cases lanes with
  | one => simp only [complexTotal, addTerms_zero_eq_cast, Nat.zero_add]
  | two =>
    simp only [complexTotal, Lawful.zero_eq_cast, addTerms_two_mul]
    simp only [addTerms_cast, zero_add, reTerm_add_reTerm, imTerm_add_imTerm]

end SignalCore.Matrix
