import SignalCore.Proofs.Fixed.Ledger
import SignalCore.Proofs.Fixed.Scaling
import SignalCore.Proofs.Matrix.Complex
import SignalCore.Proofs.Matrix.Real

/-!
# The sums of a product, addition by addition

The loops of both products run in any accumulator, and so in ledgers: one for each element of a real
product, and two for each element of a complex one.  `RealLedgers` and `ComplexLedgers` say
which ledgers belong to a call, and for factors that conform and fit there are such ledgers
(`exists_realLedgers`, `exists_complexLedgers`).

An element has as many products as the left factor has columns.  Sixteen bits of columns keep both
parts of a complex element far from the ends of 64 bits (`small_complexTotal`, `Small.exactIn`); in
32 bits the products of an element are kept in range by a shift of one factor
(`exactIn_realElementTotal`).
-/

namespace SignalCore.Matrix

open Accumulator

/-! ## Real products in 32 bits -/

/-- The sums of a real product: the loops of the call, run over cleared buffers and without the
step that finishes a sum. -/
def realSums? {A : Type} [Accumulator A] (lanes : Lanes) (left right : Matrix) :
    Option (List A) := do
  let transposed ← transpose? right.rows.toNat right.cols.toNat
    (right.data.extract 0 (1 * right.size)) (Array.replicate (1 * right.size) 0)
  let sums ← realProduct? lanes id zero left.cols.toNat right.rows.toNat right.cols.toNat
    (left.data.extract 0 (1 * left.size)) transposed
    (Array.replicate (left.rows.toNat * right.cols.toNat) zero)
  return sums.toList

/-- The ledgers are those of the sums that a real product keeps. -/
structure RealLedgers (lanes : Lanes) (left right : Matrix) (buffers : Buffers)
    (ledgers : List Ledger) : Prop where
  /-- The loops of the call, run in ledgers. -/
  loops : realSums? lanes left right = some ledgers
  /-- The same loops in any other accumulator, be it one that remembers all the sums it has held. -/
  replay : ∀ (A : Type) [Accumulator A],
    realSums? lanes left right = some (ledgers.map (Ledger.final A))
  /-- What the call writes is what the ledgers come to in 32 bits. -/
  call : ∃ scratch, multiplyReal lanes left right buffers =
    .done
      ⟨{ buffers.destination with
          data := Buffer.overlay
            (ledgers.map fun ledger => Q15.finishWrapping (ledger.final Int32)).toArray
            buffers.destination.data },
        scratch⟩

section Real

variable {A : Type} [Accumulator A]

lemma final_realElementTotal (left right : Matrix) (r c : ℕ) :
    (realElementTotal left right r c : Ledger).final A = realElementTotal left right r c :=
  Ledger.final_addTerms _ _ _

lemma realSums?_of_fits (lanes : Lanes) {left right : Matrix} {buffers : Buffers}
    (hinner : left.cols = right.rows) (hfit : Fits 1 left right buffers) :
    realSums? lanes left right =
      some ((List.range' 0 (left.rows.toNat * right.cols.toNat)).map fun i =>
        (realElementTotal left right (i / right.cols.toNat) (i % right.cols.toNat) : A)) := by
  have hblank : (zero : A) = id zero := rfl
  rw [realSums?, transpose?_of_fits hfit Array.size_replicate]
  simp only [Option.bind_eq_bind, Option.bind_some]
  rw [realProduct?_of_fits lanes id hblank hinner hfit Array.size_replicate]
  rfl

/-- The ledgers of a call whose factors conform and fit, element by element. -/
lemma exists_realLedgers (lanes : Lanes) {left right : Matrix} {buffers : Buffers}
    (hshape : Conforms left.toShape right.toShape buffers.destination.toShape)
    (hfit : Fits 1 left right buffers) :
    ∃ ledgers, RealLedgers lanes left right buffers ledgers ∧
      ledgers.length = left.rows.toNat * right.cols.toNat ∧
      ∀ r < left.rows.toNat, ∀ c < right.cols.toNat,
        ledgers[r * right.cols.toNat + c]? = some (realElementTotal left right r c) := by
  refine ⟨(List.range' 0 (left.rows.toNat * right.cols.toNat)).map fun i =>
      realElementTotal left right (i / right.cols.toNat) (i % right.cols.toNat),
    ⟨?_, ?_, ?_⟩, by simp, ?_⟩
  · exact realSums?_of_fits lanes hshape.1 hfit
  · intro A _
    rw [realSums?_of_fits lanes hshape.1 hfit, List.map_map]
    simp only [Function.comp_def, final_realElementTotal]
  · refine ⟨_, multiplyBy_of_fits hshape hfit
      (transpose?_of_fits hfit (size_transposeRun hfit)) ?_⟩
    rw [realProduct?_of_fits lanes _ (by decide) hshape.1 hfit
      ((size_resultRun hfit).trans (Nat.one_mul _)), List.map_map]
    simp only [Function.comp_def, final_realElementTotal]
  · intro r hr c hc
    exact getElem?_map_elements _ hr hc

/-- A product of a sum is small if one factor is scaled down, and the shift is made for as many
products as an element has. -/
lemma exactIn_realElementTotal {left right : Matrix} (hinner : left.cols = right.rows)
    (hscaled : IsScaledDown (Nat.log2 left.cols.toNat) left.data left.size ∨
      IsScaledDown (Nat.log2 left.cols.toNat) right.data right.size) {r c : ℕ}
    (hr : r < left.rows.toNat) (hc : c < right.cols.toNat) :
    (realElementTotal left right r c : Ledger).ExactIn Int32 := by
  have hcount : left.cols.toNat ≤ 65535 := Nat.le_of_lt_succ left.cols.toNat_lt
  have hterms : ∀ k < left.cols.toNat,
      |elementTerm left.cols.toNat (left.data.extract 0 (1 * left.size))
        (transposed 1 right.rows.toNat right.cols.toNat right.data).toArray r c (0 + k)| ≤
          2 ^ (30 - Nat.log2 left.cols.toNat) := by
    intro k hk
    have hright : k * right.cols.toNat + c < right.size := by
      rw [hinner] at hk
      exact element_lt hk hc
    rw [Nat.zero_add, elementTerm_transposed hinner hr hc hk]
    exact abs_valueAt_mul_le_of_scaled hscaled (log2_le_fifteen hcount) (element_lt hr hk) hright
  rw [realElementTotal, elementTotal]
  exact Ledger.exactIn_of_within (Ledger.within_addTerms hterms) (mul_two_pow_log2_lt hcount)

/-- With one factor scaled down, no sum of a real product wraps on its way. -/
lemma exists_exact_realLedgers (lanes : Lanes) {left right : Matrix} {buffers : Buffers}
    (hshape : Conforms left.toShape right.toShape buffers.destination.toShape)
    (hscaled : IsScaledDown (Nat.log2 left.cols.toNat) left.data left.size ∨
      IsScaledDown (Nat.log2 left.cols.toNat) right.data right.size)
    (hfit : Fits 1 left right buffers) :
    ∃ ledgers, RealLedgers lanes left right buffers ledgers ∧
      ledgers.length = left.rows.toNat * right.cols.toNat ∧
      ∀ r < left.rows.toNat, ∀ c < right.cols.toNat, ∃ ledger,
        ledgers[r * right.cols.toNat + c]? = some ledger ∧
        ledger.ExactIn Int32 ∧ ledger.final ℤ = exactElement left right r c := by
  obtain ⟨ledgers, hledgers, hlength, hsums⟩ := exists_realLedgers lanes hshape hfit
  refine ⟨ledgers, hledgers, hlength, ?_⟩
  intro r hr c hc
  refine ⟨_, hsums r hr c hc, exactIn_realElementTotal hshape.1 hscaled hr hc, ?_⟩
  rw [final_realElementTotal, realElementTotal_eq_cast hshape.1 hr hc]
  rfl

end Real

/-! ## Complex products in 64 bits -/

/-- What a pair of ledgers comes to. -/
def ComplexSum.final (A : Type) [Accumulator A] (sum : ComplexSum Ledger) : ComplexSum A :=
  ⟨sum.re.final A, sum.im.final A⟩

/-- The sums whose parts lie side by side. -/
def ComplexSum.ofParts {A : Type} : List A → List (ComplexSum A)
  | re :: im :: parts => ⟨re, im⟩ :: ofParts parts
  | _ => []

lemma ComplexSum.ofParts_flatMap_parts {A : Type} (sums : List (ComplexSum A)) :
    ofParts (sums.flatMap (parts id)) = sums := by
  induction sums with
  | nil => rfl
  | cons sum sums ih => exact congrArg (sum :: ·) ih

/-- The sums of a complex product: the loops of the call, run over cleared buffers and without the
step that finishes a part. -/
def complexSums? {A : Type} [Accumulator A] (lanes : Lanes) (left right : Matrix) :
    Option (List (ComplexSum A)) := do
  let transposed ← transposePairs? right.rows.toNat right.cols.toNat
    (right.data.extract 0 (2 * right.size)) (Array.replicate (2 * right.size) 0)
  let parts ← complexProduct? lanes id left.cols.toNat right.cols.toNat
    (left.data.extract 0 (2 * left.size)) transposed
    (Array.replicate (2 * (left.rows.toNat * right.cols.toNat)) zero)
  return ComplexSum.ofParts parts.toList

/-- The ledgers are those of the sums that a complex product keeps, two for each element. -/
structure ComplexLedgers (lanes : Lanes) (left right : Matrix) (buffers : Buffers)
    (ledgers : List (ComplexSum Ledger)) : Prop where
  /-- The loops of the call, run in ledgers. -/
  loops : complexSums? lanes left right = some ledgers
  /-- The same loops in any other accumulator, be it one that remembers all the sums it has held. -/
  replay : ∀ (A : Type) [Accumulator A],
    complexSums? lanes left right = some (ledgers.map (ComplexSum.final A))
  /-- What the call writes is what the ledgers come to in 64 bits. -/
  call : ∃ scratch, multiplyComplex lanes left right buffers =
    .done
      ⟨{ buffers.destination with
          data := Buffer.overlay
            (ledgers.flatMap fun sum => (sum.final Int64).parts Q15.finishSaturating).toArray
            buffers.destination.data },
        scratch⟩

section Complex

variable {A : Type} [Accumulator A]

/-! ### The terms of a part -/

lemma abs_reTerm_le (x y : Array Int16) (i : ℕ) : |reTerm x y i| ≤ 2 ^ 30 := by
  unfold reTerm
  split_ifs
  · exact abs_valueAt_mul_le x y i i
  · rw [abs_neg]
    exact abs_valueAt_mul_le x y i i

lemma abs_imTerm_le (x y : Array Int16) (i : ℕ) : |imTerm x y i| ≤ 2 ^ 30 := by
  unfold imTerm
  split_ifs
  · exact abs_valueAt_mul_le x y i (i + 1)
  · exact abs_valueAt_mul_le x y i (i - 1)

/-- A part of a complex sum has no term above `2 ^ 31`, and its terms come to no more than as many
times that as there are elements, however many additions have been made. -/
structure Small (inner : ℕ) (part : Ledger) : Prop where
  terms : ∀ term ∈ part.terms, |term| ≤ 2 ^ 31
  within : part.Within (inner * 2 ^ 31)

/-- One term for each element. -/
lemma small_addTerms {term : ℕ → ℤ} (inner : ℕ) (h : ∀ k, |term k| ≤ 2 ^ 31) :
    Small inner (addTerms term 0 inner zero) where
  terms := Ledger.forall_mem_terms_addTerms fun k _ => h (0 + k)
  within := Ledger.within_addTerms fun k _ => h (0 + k)

/-- Two terms for each element, of half the size. -/
lemma small_addTerms_two_mul {term : ℕ → ℤ} (inner : ℕ) (h : ∀ k, |term k| ≤ 2 ^ 30) :
    Small inner (addTerms term 0 (2 * inner) zero) where
  terms := Ledger.forall_mem_terms_addTerms fun k _ => (h (0 + k)).trans (by norm_num)
  within := by
    have hwithin : Ledger.Within ((2 * inner : ℕ) * 2 ^ 30) (addTerms term 0 (2 * inner) zero) :=
      Ledger.within_addTerms fun k _ => h (0 + k)
    refine hwithin.mono (le_of_eq ?_)
    push_cast
    ring

/-- In either width both parts of a complex dot product are small. -/
lemma small_complexTotal (lanes : Lanes) (inner : ℕ) (x y : Array Int16) :
    Small inner (complexTotal lanes inner x y : ComplexSum Ledger).re ∧
      Small inner (complexTotal lanes inner x y : ComplexSum Ledger).im := by
  cases lanes with
  | one =>
    exact ⟨small_addTerms inner fun k => abs_reProduct_le x y k k,
      small_addTerms inner fun k => abs_imProduct_le x y k k⟩
  | two =>
    exact ⟨small_addTerms_two_mul inner (abs_reTerm_le x y),
      small_addTerms_two_mul inner (abs_imTerm_le x y)⟩

lemma Small.exactIn {inner : UInt16} {part : Ledger} (h : Small inner.toNat part) :
    part.ExactIn Int64 := by
  refine Ledger.exactIn_of_within h.within ?_
  have hinner : (inner.toNat : ℤ) < 2 ^ 16 := by exact_mod_cast inner.toNat_lt
  calc
    (inner.toNat : ℤ) * 2 ^ 31 < 2 ^ 16 * 2 ^ 31 := mul_lt_mul_of_pos_right hinner (by norm_num)
    _ < 2 ^ 63 := by norm_num

/-! ### The ledgers of a call -/

lemma final_complexTotal (lanes : Lanes) (inner : ℕ) (x y : Array Int16) :
    (complexTotal lanes inner x y : ComplexSum Ledger).final A = complexTotal lanes inner x y := by
  cases lanes <;> simp only [ComplexSum.final, complexTotal, Ledger.final_addTerms]

lemma complexSums?_of_fits (lanes : Lanes) {left right : Matrix} {buffers : Buffers}
    (hinner : left.cols = right.rows) (hfit : Fits 2 left right buffers) :
    complexSums? lanes left right =
      some ((List.range' 0 (left.rows.toNat * right.cols.toNat)).map fun i =>
        (complexElementTotal lanes left right (i / right.cols.toNat) (i % right.cols.toNat) :
          ComplexSum A)) := by
  rw [complexSums?, transposePairs?_of_fits hfit Array.size_replicate]
  simp only [Option.bind_eq_bind, Option.bind_some]
  rw [complexProduct?_of_fits lanes id hinner hfit Array.size_replicate]
  exact congrArg some (ComplexSum.ofParts_flatMap_parts _)

/-- The ledgers of a call whose factors conform and fit, element by element. -/
lemma exists_complexLedgers (lanes : Lanes) {left right : Matrix} {buffers : Buffers}
    (hshape : Conforms left.toShape right.toShape buffers.destination.toShape)
    (hfit : Fits 2 left right buffers) :
    ∃ ledgers, ComplexLedgers lanes left right buffers ledgers ∧
      ledgers.length = left.rows.toNat * right.cols.toNat ∧
      ∀ r < left.rows.toNat, ∀ c < right.cols.toNat,
        ledgers[r * right.cols.toNat + c]? = some (complexElementTotal lanes left right r c) := by
  refine ⟨(List.range' 0 (left.rows.toNat * right.cols.toNat)).map fun i =>
      complexElementTotal lanes left right (i / right.cols.toNat) (i % right.cols.toNat),
    ⟨?_, ?_, ?_⟩, by simp, ?_⟩
  · exact complexSums?_of_fits lanes hshape.1 hfit
  · intro A _
    rw [complexSums?_of_fits lanes hshape.1 hfit, List.map_map]
    simp only [Function.comp_def, complexElementTotal, final_complexTotal]
  · refine ⟨_, multiplyBy_of_fits hshape hfit
      (transposePairs?_of_fits hfit (size_transposeRun hfit)) ?_⟩
    rw [complexProduct?_of_fits lanes _ hshape.1 hfit (size_resultRun hfit), List.flatMap_map,
      List.flatMap_map]
    simp only [complexElementTotal, final_complexTotal]
  · intro r hr c hc
    exact getElem?_map_elements _ hr hc

/-- No part of a sum of a complex product overflows on its way. -/
lemma exists_exact_complexLedgers (lanes : Lanes) {left right : Matrix} {buffers : Buffers}
    (hshape : Conforms left.toShape right.toShape buffers.destination.toShape)
    (hfit : Fits 2 left right buffers) :
    ∃ ledgers, ComplexLedgers lanes left right buffers ledgers ∧
      ledgers.length = left.rows.toNat * right.cols.toNat ∧
      ∀ r < left.rows.toNat, ∀ c < right.cols.toNat, ∃ sum,
        ledgers[r * right.cols.toNat + c]? = some sum ∧
        (sum.re.ExactIn Int64 ∧ sum.im.ExactIn Int64) ∧
        (Small left.cols.toNat sum.re ∧ Small left.cols.toNat sum.im) ∧
        sum.re.final ℤ = exactRe left right r c ∧ sum.im.final ℤ = exactIm left right r c := by
  obtain ⟨ledgers, hledgers, hlength, hsums⟩ := exists_complexLedgers lanes hshape hfit
  refine ⟨ledgers, hledgers, hlength, ?_⟩
  intro r hr c hc
  obtain ⟨hre, him⟩ := small_complexTotal lanes left.cols.toNat
    (complexRow left.cols.toNat (left.data.extract 0 (2 * left.size)) r)
    (complexRow left.cols.toNat
      (transposed 2 right.rows.toNat right.cols.toNat right.data).toArray c)
  have hfinal : (complexElementTotal lanes left right r c : ComplexSum Ledger).final ℤ =
      ⟨exactRe left right r c, exactIm left right r c⟩ := by
    rw [complexElementTotal, final_complexTotal]
    exact complexElementTotal_eq_cast lanes hshape.1 hr hc
  exact ⟨_, hsums r hr c hc, ⟨hre.exactIn, him.exactIn⟩, ⟨hre, him⟩,
    congrArg ComplexSum.re hfinal, congrArg ComplexSum.im hfinal⟩

end Complex

end SignalCore.Matrix
