import SignalCore.Convolution.Saturating
import SignalCore.Proofs.Convolution.Blocks
import SignalCore.Proofs.Convolution.ExactSum
import SignalCore.Proofs.Fixed.DotProduct
import SignalCore.Proofs.Fixed.Finish

/-!
# The saturating convolution over laid-out operands

Every output is the dot product of a window of the padded run with the reversed one
(`windowTotal`), in either width and in any accumulator, and no read leaves the layouts
(`sums?_eq_some`).  Once the layouts are those of two operands the window dot product is the exact
sum of the convolution (`sum_windowProduct`): read backwards, the reversed operand meets the
window at the taps of the output and at the zeros around them.

The whole call is `saturating_eq`, and `saturating_is_clamped_convolution` says what it leaves in
the three buffers.
-/

namespace SignalCore.Convolution

namespace Saturating

open Accumulator

variable {A : Type} [Accumulator A]

/-! ## Sums over windows -/

/-- The product at position `k` of the window that starts at `n`. -/
def windowProduct (padded reversed : Array Int16) (n k : ℕ) : ℤ :=
  valueAt padded (n + k) * valueAt reversed k

/-- The sum for the window that starts at `n`. -/
def windowTotal (padded reversed : Array Int16) (n : ℕ) : A :=
  addTerms (windowProduct padded reversed n) 0 reversed.size zero

lemma windowSum?_eq_some (lanes : Lanes) {padded reversed : Array Int16} {n : ℕ}
    (hfit : n + reversed.size ≤ padded.size) :
    windowSum? lanes padded reversed n = some (windowTotal padded reversed n : A) := by
  have hmin : min (padded.extract n (n + reversed.size)).size reversed.size = reversed.size := by
    rw [Array.size_extract]
    omega
  rw [windowSum?, Buffer.slice?_eq_some hfit]
  simp only [Option.bind_eq_bind, Option.bind_some]
  rw [dot?_eq_some, dotTotal, hmin, windowTotal]
  refine congrArg some (addTerms_congr _ fun k hk => ?_)
  rw [dotTerm, windowProduct, valueAt_extract (by omega)]

/-- The sums of a block grow together: after `k` taps, lane `j` has the first `k` products of the
window at `n + j`. -/
lemma blockFrom?_eq_some {padded reversed : Array Int16} {n : ℕ}
    (hfit : n + 3 + reversed.size ≤ padded.size) (left k : ℕ) (sums : Quad A) (lane : ℕ → A)
    (hk : k + left = reversed.size) (hsums : sums = Quad.ofFn lane) :
    blockFrom? padded reversed n left k sums = some (Quad.ofFn fun j =>
      addTerms (windowProduct padded reversed (n + j)) k left (lane j)) := by
  fun_induction blockFrom? padded reversed n left k sums generalizing lane with
  | case1 => rw [hsums]; rfl
  | case2 k sums =>
    rw [hsums, getElem?_eq_some_getD (by omega), getElem?_eq_some_getD (by omega),
      getElem?_eq_some_getD (by omega), getElem?_eq_some_getD (by omega),
      getElem?_eq_some_getD (by omega)]
    rfl
  | case3 left k sums ih =>
    rw [Packed.read?_eq_some (by omega), Packed.read?_eq_some (by omega),
      Packed.read?_eq_some (by omega), Packed.read?_eq_some (by omega),
      Packed.read?_eq_some (by omega)]
    simp only [Option.bind_eq_bind, Option.bind_some]
    rw [ih _ _ _ _ _
      (fun j => add (add (lane j) (windowProduct padded reversed (n + j) k))
        (windowProduct padded reversed (n + j) (k + 1))) (by omega)]
    · rfl
    · rw [hsums]
      simp only [dualMac_pairAt]
      rfl

lemma block?_eq_some {padded reversed : Array Int16} {n : ℕ}
    (hfit : n + 3 + reversed.size ≤ padded.size) :
    block? padded reversed n =
      some (Quad.ofFn fun j => (windowTotal padded reversed (n + j) : A)) :=
  blockFrom?_eq_some hfit _ _ _ (fun _ => zero) (by omega) rfl

/-- In either width every output has the sum for its window, if the last window ends inside the
padded run. -/
theorem sums?_eq_some (lanes : Lanes) {padded reversed : Array Int16} {count : ℕ}
    (hfit : count + reversed.size ≤ padded.size + 1) :
    sums? lanes padded reversed count =
      some ((List.range' 0 count).map (windowTotal padded reversed : ℕ → A)) := by
  cases lanes with
  | one => exact Buffer.tabulate?_eq_some fun n _ _ => windowSum?_eq_some .one (by omega)
  | two =>
    have hblocks : Buffer.tabulate? 0 (count / 4) (fun i => block? padded reversed (4 * i)) =
        some ((List.range' 0 (count / 4)).map fun i =>
          Quad.ofFn fun j => (windowTotal padded reversed (0 + 4 * i + j) : A)) := by
      refine Buffer.tabulate?_eq_some fun i _ _ => ?_
      rw [block?_eq_some (by omega), Nat.zero_add]
    have hsplit : List.range' 0 count =
        List.range' 0 (4 * (count / 4)) ++ List.range' (4 * (count / 4)) (count % 4) := by
      have happend := List.range'_append_1 (s := 0) (m := 4 * (count / 4)) (n := count % 4)
      rw [Nat.zero_add, Nat.div_add_mod] at happend
      exact happend.symm
    rw [sums?, pairedSums?, hblocks,
      Buffer.tabulate?_eq_some fun n _ _ => windowSum?_eq_some .two (by omega), hsplit,
      List.map_append, ← Quad.flatMap_ofFn]
    rfl

/-! ## The layouts -/

lemma size_surround (x : Array Int16) (zeros : ℕ) :
    (surround x zeros).size = x.size + 2 * zeros := by
  simp only [surround, Array.size_append, Array.size_replicate]
  omega

lemma valueAt_surround (x : Array Int16) (zeros i : ℕ) :
    valueAt (surround x zeros) i = if i < zeros then 0 else valueAt x (i - zeros) :=
  valueAt_between_zeros zeros zeros x i

/-- Over the layouts of two operands, a window meets the reversed one at the taps of its
output. -/
lemma sum_windowProduct (x y : Array Int16) (n : ℕ) :
    ∑ k ∈ Finset.range y.size, windowProduct (surround x (y.size - 1)) y.reverse n k =
      exactSum x y n := by
  rw [exactSum_comm, exactSum, Finset.sum_filter, ← Finset.sum_range_reflect]
  refine Finset.sum_congr rfl fun j hj => ?_
  rw [Finset.mem_range] at hj
  have hback : y.size - 1 - (y.size - 1 - j) = j := by omega
  rw [windowProduct, valueAt_surround, valueAt_reverse (by omega), hback, mul_comm]
  by_cases hjn : j ≤ n
  · have hposition : n + (y.size - 1 - j) - (y.size - 1) = n - j := by omega
    rw [if_neg (by omega), hposition]
    split_ifs with htap
    · rfl
    · rw [valueAt_of_size_le x (by omega), mul_zero]
  · rw [if_pos (by omega), if_neg (by omega), mul_zero]

lemma windowTotal_eq_cast [Lawful A] (x y : Array Int16) (n : ℕ) :
    (windowTotal (surround x (y.size - 1)) y.reverse n : A) = Lawful.cast (exactSum x y n) := by
  rw [windowTotal, addTerms_zero_eq_cast, ← sum_windowProduct, Array.size_reverse]
  simp only [Nat.zero_add]

/-! ## The kernel -/

/-- The samples that the windows over the layouts of two operands give. -/
def windowSamples (x y : Array Int16) : Array Int16 :=
  ((List.range' 0 (x.size + y.size - 1)).map fun n =>
    Q15.finishSaturating (windowTotal (surround x (y.size - 1)) y.reverse n)).toArray

lemma size_windowSamples (x y : Array Int16) :
    (windowSamples x y).size = x.size + y.size - 1 := by
  simp [windowSamples]

lemma getElem?_windowSamples {x y : Array Int16} {n : ℕ} (hn : n < x.size + y.size - 1) :
    (windowSamples x y)[n]? =
      some (Q15.finishSaturating (windowTotal (surround x (y.size - 1)) y.reverse n)) := by
  simp [windowSamples, hn]

/-- A 64-bit sum of fewer than `2 ^ 33` products has not wrapped. -/
lemma finishSaturating_windowTotal {x y : Array Int16} (hshort : y.size < 2 ^ 33) (n : ℕ) :
    Q15.finishSaturating (windowTotal (surround x (y.size - 1)) y.reverse n) =
      Q15.saturate (exactSum x y n / 2 ^ 15) := by
  obtain ⟨hlow, hhigh⟩ := abs_le.1 (abs_exactSum_le x y n)
  have hbound : (y.size : ℤ) < 2 ^ 33 := by exact_mod_cast hshort
  rw [windowTotal_eq_cast]
  exact Q15.finishSaturating_ofInt (by omega) (by omega)

end Saturating

open Saturating

/-- The call in either width: the bounds in their order, with the layouts that are left behind at
each of them. -/
theorem saturating_eq (lanes : Lanes) {a b x y : Array Int16} (hx : longer a b = x)
    (hy : shorter a b = y) (buffers : Buffers) :
    saturating lanes a b buffers =
      if y.size = 0 then .done buffers
      else if buffers.padded.size < x.size + 2 * (y.size - 1) then .outOfBounds buffers
      else if buffers.reversed.size < y.size then
        .outOfBounds
          { buffers with padded := Buffer.overlay (surround x (y.size - 1)) buffers.padded }
      else if buffers.destination.size < x.size + y.size - 1 then
        .outOfBounds
          { buffers with
            padded := Buffer.overlay (surround x (y.size - 1)) buffers.padded
            reversed := Buffer.overlay y.reverse buffers.reversed }
      else
        .done
          { destination := Buffer.overlay (windowSamples x y) buffers.destination
            padded := Buffer.overlay (surround x (y.size - 1)) buffers.padded
            reversed := Buffer.overlay y.reverse buffers.reversed } := by
  rw [saturating, byLength_eq, hx, hy]
  dsimp only
  by_cases hempty : y.size = 0
  · rw [if_pos hempty, if_pos (by simpa using hempty)]
  · rw [if_neg hempty, if_neg (by simpa using hempty)]
    split_ifs with hpadded hreversed
    · rfl
    · rfl
    · rfl
    · have hsize := size_surround x (y.size - 1)
      have hlast : x.size + y.size - 1 + y.reverse.size ≤
          (surround x (y.size - 1)).size + 1 := by
        rw [Array.size_reverse]
        omega
      rw [Buffer.extract_overlay hsize (by omega),
        Buffer.extract_overlay Array.size_reverse (by omega), sums?_eq_some lanes hlast]
      simp only [List.map_map, windowSamples, Function.comp_def]

/-- The samples of the saturating convolution: each exact sum without its fraction bits, held at
the rails. -/
def clampedSamples (a b : Array Int16) : Array Int16 :=
  ((List.range' 0 (outputLength a.size b.size)).map fun n =>
    Q15.saturate (exactSum a b n / 2 ^ 15)).toArray

lemma size_clampedSamples (a b : Array Int16) :
    (clampedSamples a b).size = outputLength a.size b.size := by
  simp [clampedSamples]

lemma getElem?_clampedSamples {a b : Array Int16} {n : ℕ} (hn : n < outputLength a.size b.size) :
    (clampedSamples a b)[n]? = some (Q15.saturate (exactSum a b n / 2 ^ 15)) := by
  simp [clampedSamples, hn]

lemma windowSamples_eq_clampedSamples {a b : Array Int16} (ha : 0 < a.size) (hb : 0 < b.size)
    (hshort : min a.size b.size < 2 ^ 33) :
    windowSamples (longer a b) (shorter a b) = clampedSamples a b := by
  have hx := size_longer a b
  have hy := size_shorter a b
  have hlength : (longer a b).size + (shorter a b).size - 1 = a.size + b.size - 1 := by omega
  rw [windowSamples, clampedSamples, outputLength_of_pos ha hb, hlength]
  congr 2
  funext n
  rw [finishSaturating_windowTotal (by omega), exactSum_longer_shorter]

/-- The buffers hold the convolution of two operands and the layouts of both. -/
structure Saturating.Buffers.Fit (buffers : Buffers) (a b : Array Int16) : Prop where
  destination : outputLength a.size b.size ≤ buffers.destination.size
  padded : paddedLength a.size b.size ≤ buffers.padded.size
  reversed : reversedLength a.size b.size ≤ buffers.reversed.size

/-- The call in either width, with buffers that are long enough. -/
lemma saturating_of_fit (lanes : Lanes) {a b : Array Int16} {buffers : Buffers} (ha : 0 < a.size)
    (hb : 0 < b.size) (hshort : min a.size b.size < 2 ^ 33) (hfit : buffers.Fit a b) :
    saturating lanes a b buffers =
      .done
        { destination := Buffer.overlay (clampedSamples a b) buffers.destination
          padded :=
            Buffer.overlay (surround (longer a b) ((shorter a b).size - 1)) buffers.padded
          reversed := Buffer.overlay (shorter a b).reverse buffers.reversed } := by
  obtain ⟨hdestination, hpadded, hreversed⟩ := hfit
  have hx := size_longer a b
  have hy := size_shorter a b
  rw [outputLength_of_pos ha hb] at hdestination
  rw [paddedLength, if_neg (by omega)] at hpadded
  rw [reversedLength] at hreversed
  rw [saturating_eq lanes rfl rfl, if_neg (by omega), if_neg (by omega), if_neg (by omega),
    if_neg (by omega), windowSamples_eq_clampedSamples ha hb hshort]

/-- In buffers that are long enough the kernel leaves the samples of all outputs. -/
lemma exists_clamped (lanes : Lanes) {a b : Array Int16} {buffers : Buffers} (ha : 0 < a.size)
    (hb : 0 < b.size) (hshort : min a.size b.size < 2 ^ 33) (hfit : buffers.Fit a b) :
    ∃ output, saturating lanes a b buffers = .done output ∧
      ∀ n < a.size + b.size - 1,
        output.destination[n]? = some (Q15.saturate (exactSum a b n / 2 ^ 15)) := by
  have hsize := size_clampedSamples a b
  have hroom := hfit.destination
  refine ⟨_, saturating_of_fit lanes ha hb hshort hfit, ?_⟩
  intro n hn
  rw [← outputLength_of_pos ha hb] at hn
  rw [Buffer.getElem?_overlay_of_lt (by omega) (by omega), getElem?_clampedSamples hn]

/-- **The saturating convolution.**  Whatever the buffers held, sample `n` of the destination is
the exact sum without its fraction bits, held at the rails; the scratch buffers start with the
longer operand between two runs of zeros and with the shorter one backwards; and every other
sample is kept. -/
theorem saturating_is_clamped_convolution (lanes : Lanes) (a b : Array Int16) (buffers : Buffers)
    (ha : 0 < a.size) (hb : 0 < b.size) (hshort : min a.size b.size < 2 ^ 33)
    (hdestination : outputLength a.size b.size ≤ buffers.destination.size)
    (hpadded : paddedLength a.size b.size ≤ buffers.padded.size)
    (hreversed : reversedLength a.size b.size ≤ buffers.reversed.size) :
    ∃ output, saturating lanes a b buffers = .done output ∧
      (∀ n < a.size + b.size - 1, ∃ sample : Int16, output.destination[n]? = some sample ∧
        sample.toInt = max (-32768) (min (exactSum a b n / 2 ^ 15) 32767)) ∧
      (∀ n, a.size + b.size - 1 ≤ n → output.destination[n]? = buffers.destination[n]?) ∧
      output.padded =
        Array.replicate ((shorter a b).size - 1) 0 ++ longer a b ++
          Array.replicate ((shorter a b).size - 1) 0 ++
          buffers.padded.extract ((longer a b).size + 2 * ((shorter a b).size - 1)) ∧
      output.reversed = (shorter a b).reverse ++ buffers.reversed.extract (shorter a b).size := by
  have hx := size_longer a b
  have hy := size_shorter a b
  have hpad := size_surround (longer a b) ((shorter a b).size - 1)
  have hsize := size_windowSamples (longer a b) (shorter a b)
  have hlength : (longer a b).size + (shorter a b).size - 1 = a.size + b.size - 1 := by omega
  rw [outputLength_of_pos ha hb] at hdestination
  rw [paddedLength, if_neg (by omega)] at hpadded
  rw [reversedLength] at hreversed
  have hdone := saturating_eq lanes (a := a) (b := b) rfl rfl buffers
  rw [if_neg (by omega), if_neg (by omega), if_neg (by omega), if_neg (by omega)] at hdone
  refine ⟨_, hdone, ?_, ?_, ?_, ?_⟩
  · intro n hn
    refine ⟨Q15.saturate (exactSum a b n / 2 ^ 15), ?_, Q15.toInt_saturate _⟩
    rw [Buffer.getElem?_overlay_of_lt (by omega) (by omega),
      getElem?_windowSamples (by rwa [hlength]), finishSaturating_windowTotal (by omega),
      exactSum_longer_shorter]
  · intro n hn
    exact Buffer.getElem?_overlay_of_le (by omega)
  · rw [← hpad]
    exact Buffer.overlay_eq_append (by omega)
  · have hback : (shorter a b).reverse.size = (shorter a b).size := Array.size_reverse
    nth_rewrite 2 [← hback]
    exact Buffer.overlay_eq_append (by omega)

/-- Two products of `2 ^ 30` are held at the upper rail, with the shorter operand given first and
other samples in every buffer. -/
theorem saturating_is_clamped_convolution_at_rail :
    exactSum #[-32768, -32768] #[-32768, -32768, 1] 1 = 2 * 2 ^ 30 ∧
      ∃ output, saturating .two #[-32768, -32768] #[-32768, -32768, 1]
          ⟨#[9, 9, 9, 9, 9], #[8, 8, 8, 8, 8, 8], #[7, 7, 7]⟩ = .done output ∧
        output.destination[1]? = some (32767 : Int16) ∧
        output.destination[4]? = some (9 : Int16) ∧
        output.padded = #[0, -32768, -32768, 1, 0, 8] ∧
        output.reversed = #[-32768, -32768, 7] := by
  have hsum : exactSum #[-32768, -32768] #[-32768, -32768, 1] 1 = 2 * 2 ^ 30 := by decide
  obtain ⟨output, hdone, hsample, hrest, hpadded, hreversed⟩ :=
    saturating_is_clamped_convolution .two #[-32768, -32768] #[-32768, -32768, 1]
      ⟨#[9, 9, 9, 9, 9], #[8, 8, 8, 8, 8, 8], #[7, 7, 7]⟩ (by decide) (by decide) (by decide)
      (by decide) (by decide) (by decide)
  obtain ⟨sample, hget, hvalue⟩ := hsample 1 (by decide)
  have hrail : sample = 32767 := by
    rw [← Int16.toInt_inj, hvalue, hsum]
    decide
  refine ⟨hsum, output, hdone, by rw [hget, hrail], hrest 4 (by decide), ?_, ?_⟩
  · rw [hpadded]
    decide +kernel
  · rw [hreversed]
    decide +kernel

end SignalCore.Convolution
