import SignalCore.Proofs.Convolution.Ending
import SignalCore.Proofs.Convolution.Wrapping
import SignalCore.Proofs.Fixed.Ledger
import SignalCore.Proofs.Fixed.Scaling

/-!
# The sums of a convolution, addition by addition

The loops of both kernels run in any accumulator, and so in a ledger.  `Wrapping.Ledgers` and
`Saturating.Ledgers` say which ledgers belong to a call: its own loops come to them, in any other
accumulator the loops come to what the ledgers come to there, and so does what the call writes in
the width of the kernel.  In buffers that fit there are such
ledgers, one for each output (`exists_wrapping_ledgers`, `exists_saturating_ledgers`).

No sum of a convolution has more terms than the shorter operand has samples.  Fewer than `2 ^ 33`
terms keep every sum on its way within 64 bits (`exactIn_outputTotal`); in 32 bits as many terms
as the shorter operand has are kept in range by a shift of one operand (`exactIn_outputSum`).
-/

namespace SignalCore.Convolution

open Accumulator

/-! ## Sums in 32 bits -/

/-- The ledgers are those of the sums that a wrapping convolution keeps. -/
structure Wrapping.Ledgers (lanes : Lanes) (a b destination : Array Int16)
    (ledgers : List Ledger) : Prop where
  /-- The loops of the call, run in ledgers. -/
  loops : sums? lanes (longer a b) (shorter a b) = some ledgers
  /-- The same loops in any other accumulator, be it one that remembers all the sums it has held. -/
  replay : ∀ (A : Type) [Accumulator A],
    sums? lanes (longer a b) (shorter a b) = some (ledgers.map (Ledger.final A))
  /-- What the call writes is what the ledgers come to in 32 bits. -/
  call : wrapping lanes a b destination =
    .done (Buffer.overlay
      (ledgers.map fun ledger => Q15.finishWrapping (ledger.final Int32)).toArray destination)

section Wrapping

variable {A : Type} [Accumulator A]

lemma final_outputSum (x y : Array Int16) (n : ℕ) :
    (outputSum x y n : Ledger).final A = outputSum x y n :=
  Ledger.final_addTerms _ _ _

/-- The ledgers of a call whose destination is long enough, output by output. -/
lemma exists_wrapping_ledgers (lanes : Lanes) {a b destination : Array Int16} (ha : 0 < a.size)
    (hb : 0 < b.size) (hfit : outputLength a.size b.size ≤ destination.size) :
    ∃ ledgers, Wrapping.Ledgers lanes a b destination ledgers ∧
      ledgers.length = outputLength a.size b.size ∧
      ∀ n < outputLength a.size b.size,
        ledgers[n]? = some (outputSum (longer a b) (shorter a b) n) := by
  have hx := size_longer a b
  have hy := size_shorter a b
  have hlength : (longer a b).size + (shorter a b).size - 1 = outputLength a.size b.size := by
    rw [outputLength_of_pos ha hb]
    omega
  refine ⟨(List.range' 0 (outputLength a.size b.size)).map
    (outputSum (longer a b) (shorter a b)), ⟨?_, ?_, ?_⟩, by simp, ?_⟩
  · rw [Wrapping.sums?_eq_some lanes (by omega) (by omega), hlength]
  · intro A _
    rw [Wrapping.sums?_eq_some lanes (by omega) (by omega), hlength, List.map_map]
    simp only [Function.comp_def, final_outputSum]
  · rw [wrapping_eq, if_neg (Nat.not_lt.2 hfit), wrappedSamples, List.map_map]
    simp only [Function.comp_def, final_outputSum, finishWrapping_outputSum,
      exactSum_longer_shorter]
  · intro n hn
    simp [hn]

/-- A product of a sum is small if one operand is scaled down, and the shift is made for as many
products as a sum can have. -/
lemma exactIn_outputSum {x y : Array Int16} (hcount : y.size ≤ 65535)
    (hscaled : IsScaledDown (Nat.log2 y.size) x x.size ∨
      IsScaledDown (Nat.log2 y.size) y y.size) (n : ℕ) :
    (outputSum x y n : Ledger).ExactIn Int32 := by
  have hbits := log2_le_fifteen hcount
  have hterms : ∀ i < min x.size (n + 1) - (n + 1 - y.size),
      |tapProduct x y n (n + 1 - y.size + i)| ≤ 2 ^ (30 - Nat.log2 y.size) := by
    intro i hi
    exact abs_valueAt_mul_le_of_scaled hscaled hbits (by omega) (by omega)
  have hsize : ((min x.size (n + 1) - (n + 1 - y.size) : ℕ) : ℤ) ≤ y.size := by
    have : min x.size (n + 1) - (n + 1 - y.size) ≤ y.size := by omega
    exact_mod_cast this
  have hwithin := (Ledger.within_addTerms hterms).mono
    (mul_le_mul_of_nonneg_right hsize (by positivity))
  exact Ledger.exactIn_of_within hwithin (mul_two_pow_log2_lt hcount)

/-- Which operand is the longer one does not matter for what holds of one of the two. -/
lemma longer_or_shorter (property : Array Int16 → Prop) {a b : Array Int16}
    (h : property a ∨ property b) : property (longer a b) ∨ property (shorter a b) := by
  unfold longer shorter
  split_ifs
  · exact h
  · exact h.symm

/-- With one operand scaled down, no sum of a wrapping convolution wraps on its way. -/
lemma exists_exact_wrapping_ledgers (lanes : Lanes) {a b destination : Array Int16}
    (ha : 0 < a.size) (hb : 0 < b.size) (hcount : min a.size b.size ≤ 65535)
    (hscaled : IsScaledDown (Nat.log2 (min a.size b.size)) a a.size ∨
      IsScaledDown (Nat.log2 (min a.size b.size)) b b.size)
    (hfit : outputLength a.size b.size ≤ destination.size) :
    ∃ ledgers, Wrapping.Ledgers lanes a b destination ledgers ∧
      ledgers.length = outputLength a.size b.size ∧
      ∀ n < outputLength a.size b.size, ∃ ledger, ledgers[n]? = some ledger ∧
        ledger.ExactIn Int32 ∧ ledger.final ℤ = exactSum a b n := by
  obtain ⟨ledgers, hledgers, hlength, hsums⟩ := exists_wrapping_ledgers lanes ha hb hfit
  refine ⟨ledgers, hledgers, hlength, ?_⟩
  intro n hn
  rw [← size_shorter] at hcount hscaled
  have hoperands :=
    longer_or_shorter (fun x => IsScaledDown (Nat.log2 (shorter a b).size) x x.size) hscaled
  refine ⟨_, hsums n hn, exactIn_outputSum hcount hoperands n, ?_⟩
  rw [final_outputSum, outputSum_eq_cast, exactSum_longer_shorter]
  rfl

end Wrapping

/-! ## Sums in 64 bits -/

open Saturating

/-- The ledgers are those of the sums that a saturating convolution keeps. -/
structure Saturating.Ledgers (lanes : Lanes) (a b : Array Int16) (buffers : Buffers)
    (ledgers : List Ledger) : Prop where
  /-- The loops of the call, run in ledgers over the layouts of the operands. -/
  loops : sums? lanes (surround (longer a b) ((shorter a b).size - 1)) (shorter a b).reverse
    (outputLength a.size b.size) = some ledgers
  /-- The same loops in any other accumulator, be it one that remembers all the sums it has held. -/
  replay : ∀ (A : Type) [Accumulator A],
    sums? lanes (surround (longer a b) ((shorter a b).size - 1)) (shorter a b).reverse
      (outputLength a.size b.size) = some (ledgers.map (Ledger.final A))
  /-- What the call writes is what the ledgers come to in 64 bits. -/
  call : ∃ left, saturating lanes a b buffers = .done left ∧ left.destination =
    Buffer.overlay (ledgers.map fun ledger => Q15.finishSaturating (ledger.final Int64)).toArray
      buffers.destination

/-- The sum of one output of a saturating convolution. -/
def Saturating.outputTotal {A : Type} [Accumulator A] (a b : Array Int16) (n : ℕ) : A :=
  windowTotal (surround (longer a b) ((shorter a b).size - 1)) (shorter a b).reverse n

section Saturating

variable {A : Type} [Accumulator A]

lemma final_outputTotal (a b : Array Int16) (n : ℕ) :
    (outputTotal a b n : Ledger).final A = outputTotal a b n :=
  Ledger.final_addTerms _ _ _

lemma outputTotal_eq_cast [Lawful A] (a b : Array Int16) (n : ℕ) :
    (outputTotal a b n : A) = Lawful.cast (exactSum a b n) := by
  rw [outputTotal, windowTotal_eq_cast, exactSum_longer_shorter]

/-- The ledgers of a call whose buffers are long enough, output by output; with an empty operand
there are none. -/
lemma exists_saturating_ledgers (lanes : Lanes) {a b : Array Int16} {buffers : Buffers}
    (hfit : buffers.Fit a b) :
    ∃ ledgers, Saturating.Ledgers lanes a b buffers ledgers ∧
      ledgers.length = outputLength a.size b.size ∧
      ∀ n < outputLength a.size b.size, ledgers[n]? = some (outputTotal a b n) := by
  have hlast : outputLength a.size b.size + (shorter a b).reverse.size ≤
      (surround (longer a b) ((shorter a b).size - 1)).size + 1 := by
    rw [Array.size_reverse, size_surround, size_longer, size_shorter, outputLength]
    split_ifs <;> omega
  refine ⟨(List.range' 0 (outputLength a.size b.size)).map (outputTotal a b), ⟨?_, ?_, ?_⟩,
    by simp, ?_⟩
  · exact sums?_eq_some lanes hlast
  · intro A _
    rw [sums?_eq_some lanes hlast, List.map_map]
    simp only [Function.comp_def, final_outputTotal]
    rfl
  · by_cases hempty : a.size = 0 ∨ b.size = 0
    · refine ⟨buffers, saturating_of_empty lanes hempty, ?_⟩
      rw [outputLength_of_empty hempty]
      simp
    · rw [saturating_eq_of_lengths, if_neg hempty, if_neg (Nat.not_lt.2 hfit.padded),
        if_neg (Nat.not_lt.2 hfit.reversed), if_neg (Nat.not_lt.2 hfit.destination)]
      refine ⟨_, rfl, ?_⟩
      rw [List.map_map, windowSamples, ← outputLength_eq hempty]
      simp only [Function.comp_def, final_outputTotal]
      rfl
  · intro n hn
    simp [hn]

/-- Fewer than `2 ^ 33` products of at most `2 ^ 30` do not fill 64 bits. -/
lemma exactIn_outputTotal {a b : Array Int16} (hshort : min a.size b.size < 2 ^ 33) (n : ℕ) :
    (outputTotal a b n : Ledger).ExactIn Int64 := by
  have hterms : ∀ k < (shorter a b).reverse.size,
      |windowProduct (surround (longer a b) ((shorter a b).size - 1)) (shorter a b).reverse n
        (0 + k)| ≤ 2 ^ 30 := by
    intro k _
    exact abs_valueAt_mul_le _ _ _ _
  have hsize : ((shorter a b).reverse.size : ℤ) < 2 ^ 33 := by
    rw [Array.size_reverse, size_shorter]
    exact_mod_cast hshort
  have hlimit : ((shorter a b).reverse.size : ℤ) * 2 ^ 30 < 2 ^ 63 := by
    calc
      ((shorter a b).reverse.size : ℤ) * 2 ^ 30 < 2 ^ 33 * 2 ^ 30 :=
        mul_lt_mul_of_pos_right hsize (by norm_num)
      _ = 2 ^ 63 := by norm_num
  rw [outputTotal, windowTotal]
  exact Ledger.exactIn_of_within (Ledger.within_addTerms hterms) hlimit

/-- With fewer than `2 ^ 33` samples in one operand, no sum of a saturating convolution overflows
on its way. -/
lemma exists_exact_saturating_ledgers (lanes : Lanes) {a b : Array Int16} {buffers : Buffers}
    (hshort : min a.size b.size < 2 ^ 33) (hfit : buffers.Fit a b) :
    ∃ ledgers, Saturating.Ledgers lanes a b buffers ledgers ∧
      ledgers.length = outputLength a.size b.size ∧
      ∀ n < outputLength a.size b.size, ∃ ledger, ledgers[n]? = some ledger ∧
        ledger.ExactIn Int64 ∧ ledger.final ℤ = exactSum a b n := by
  obtain ⟨ledgers, hledgers, hlength, hsums⟩ := exists_saturating_ledgers lanes hfit
  refine ⟨ledgers, hledgers, hlength, ?_⟩
  intro n hn
  refine ⟨_, hsums n hn, exactIn_outputTotal hshort n, ?_⟩
  rw [final_outputTotal, outputTotal_eq_cast]
  rfl

end Saturating

end SignalCore.Convolution
