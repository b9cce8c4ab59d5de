import SignalCore.Convolution.Wrapping
import SignalCore.Proofs.Convolution.Blocks
import SignalCore.Proofs.Convolution.ExactSum
import SignalCore.Proofs.Fixed.Finish

/-!
# The loops of the wrapping convolution

Each loop that reads only taps adds their products in ascending order, whether it takes one
product in a step or two (`tapsFrom?_eq_some`, `tapsPairedFrom?_eq_some`), and a steady block
does so for its four outputs at once (`steadyBlock?_eq_some`).  The ranges of the three phases are
the taps of their outputs, so both ways to run the kernel give `outputSum` at every output
(`sums?_eq_some`), in any accumulator and without a read outside the operands.

The whole call is `wrapping_eq`: a destination that is too short is left alone, and any other
gets `wrappedSamples` over its start.
-/

namespace SignalCore.Convolution

namespace Wrapping

open Accumulator

variable {A : Type} [Accumulator A]

/-! ## The sum for one output -/

lemma tapsFrom?_eq_some {x y : Array Int16} {n : ℕ} (count k : ℕ) (sum : A)
    (h : ∀ i, k ≤ i → i < k + count → IsTap x y n i) :
    tapsFrom? x y n count k sum = some (addTerms (tapProduct x y n) k count sum) := by
  fun_induction tapsFrom? x y n count k sum with
  | case1 => rfl
  | case2 count k sum ih =>
    obtain ⟨hx, hn, hy⟩ := h k le_rfl (by omega)
    simp only [getElem?_eq_some_getD hx, getElem?_eq_some_getD hy, hn, ↓reduceIte,
      Option.bind_eq_bind, Option.bind_some]
    exact ih _ _ fun i hi hlt => h i (by omega) (by omega)

lemma tapsPairedFrom?_eq_some {x y : Array Int16} {n : ℕ} (count k : ℕ) (sum : A)
    (h : ∀ i, k ≤ i → i < k + count → IsTap x y n i) :
    tapsPairedFrom? x y n count k sum = some (addTerms (tapProduct x y n) k count sum) := by
  fun_induction tapsPairedFrom? x y n count k sum with
  | case1 => rfl
  | case2 k sum =>
    obtain ⟨hx, hn, hy⟩ := h k le_rfl (by omega)
    simp only [getElem?_eq_some_getD hx, getElem?_eq_some_getD hy, hn, ↓reduceIte,
      Option.bind_eq_bind, Option.bind_some]
    rfl
  | case3 count k sum ih =>
    obtain ⟨hx, hn, hy⟩ := h k le_rfl (by omega)
    obtain ⟨hx', hn', hy'⟩ := h (k + 1) (by omega) (by omega)
    simp only [Packed.read?_eq_some hx', Packed.readBack?_eq_some (by omega : 0 < n - k) hy, hn,
      ↓reduceIte, Option.bind_eq_bind, Option.bind_some]
    rw [ih _ _ fun i hi hlt => h i (by omega) (by omega), dualMac_pairBackAt, Nat.sub_sub,
      addTerms_add_two]
    rfl

/-! ## Four steady outputs at once -/

/-- The pairs of a steady block.  The four sums grow together: after `k` samples of every window,
lane `j` has the first `k` taps of its output. -/
lemma steadyPairs?_eq_some {x y : Array Int16} {start : ℕ} (hx : start + 3 + y.size ≤ x.size)
    (left k : ℕ) (near next : Packed) (sums : Quad A) (lane : ℕ → A) (hk : k + left = y.size)
    (hnear : near = Packed.pairAt x (start + k)) (hnext : next = Packed.pairAt x (start + k + 1))
    (hsums : sums = Quad.ofFn lane) :
    steadyPairs? x y start left k near next sums = some (Quad.ofFn fun j =>
      addTerms (tapProduct x y (start + j + (y.size - 1))) (start + j + k) (2 * (left / 2))
        (lane j)) := by
  fun_induction steadyPairs? x y start left k near next sums generalizing lane with
  | case1 => rw [hsums]; rfl
  | case2 => rw [hsums]; rfl
  | case3 left k near next sums ih =>
    subst hnear hnext hsums
    rw [Packed.readBack?_eq_some (by omega) (by omega), Packed.read?_eq_some (by omega),
      Packed.read?_eq_some (by omega)]
    simp only [Option.bind_eq_bind, Option.bind_some]
    -- one step of lane `j`: the pair read backwards holds the coefficients of its next two taps
    have hlane : ∀ j sum, dualMac sum (Packed.pairAt x (start + j + k))
        (Packed.pairBackAt y (left + 1)) =
          addTerms (tapProduct x y (start + j + (y.size - 1))) (start + j + k) 2 (sum : A) := by
      intro j sum
      have hnow : start + j + (y.size - 1) - (start + j + k) = left + 1 := by omega
      have hthen : start + j + (y.size - 1) - (start + j + k + 1) = left := by omega
      rw [dualMac_pairBackAt, addTerms_add_two, addTerms_zero, tapProduct, tapProduct, hnow, hthen]
      rfl
    have hquad : (⟨dualMac (lane 0) (Packed.pairAt x (start + k)) (Packed.pairBackAt y (left + 1)),
        dualMac (lane 1) (Packed.pairAt x (start + k + 1)) (Packed.pairBackAt y (left + 1)),
        dualMac (lane 2) (Packed.pairAt x (start + k + 2)) (Packed.pairBackAt y (left + 1)),
        dualMac (lane 3) (Packed.pairAt x (start + k + 3)) (Packed.pairBackAt y (left + 1))⟩ :
          Quad A) = Quad.ofFn fun j =>
            addTerms (tapProduct x y (start + j + (y.size - 1))) (start + j + k) 2 (lane j) := by
      rw [Quad.ofFn, ← hlane, ← hlane, ← hlane, ← hlane]
      simp only [Nat.add_right_comm start _ k, Nat.add_zero]
    have hstep : 2 * ((left + 2) / 2) = 2 + 2 * (left / 2) := by omega
    have hrest := ih (Packed.pairBackAt y (left + 1)) (Packed.pairAt x (start + k + 2))
      (Packed.pairAt x (start + k + 3)) _ (by omega) rfl rfl hquad
    simp only [Nat.succ_eq_add_one, hstep, addTerms_add, Nat.add_assoc _ k 2]
    exact hrest

/-- The tap that an odd number of coefficients leaves over. -/
lemma steadyTail?_eq_some {x y : Array Int16} {start : ℕ} (hx : start + 3 + y.size ≤ x.size)
    (lane : ℕ → A) :
    steadyTail? x y start (Quad.ofFn lane) = some (Quad.ofFn fun j =>
      addTerms (tapProduct x y (start + j + (y.size - 1))) (start + j + 2 * (y.size / 2))
        (y.size % 2) (lane j)) := by
  rcases Nat.mod_two_eq_zero_or_one y.size with heven | hodd
  · rw [steadyTail?, if_neg (by omega), heven]
    rfl
  · have hlast : 2 * (y.size / 2) = y.size - 1 := by omega
    have hcoefficient : 0 < y.size := by omega
    have hwindow : start + (y.size - 1) < x.size := by omega
    have hread : ∀ j < 4, x[start + (y.size - 1) + j]? =
        some (x.getD (start + (y.size - 1) + j) 0) := by
      intro j hj
      exact getElem?_eq_some_getD (by omega)
    rw [steadyTail?, if_pos hodd, hodd, hlast]
    simp only [getElem?_eq_some_getD hcoefficient, getElem?_eq_some_getD hwindow,
      hread 1 (by omega), hread 2 (by omega), hread 3 (by omega), Option.bind_eq_bind,
      Option.bind_some, Quad.ofFn, mac_getD, addTerms_succ, addTerms_zero, tapProduct,
      Nat.sub_self, Nat.add_right_comm start _ (y.size - 1), Nat.add_zero]
    rfl

/-- A steady block gives the sums of its four outputs. -/
lemma steadyBlock?_eq_some {x y : Array Int16} {start : ℕ} (hpos : 0 < y.size)
    (hx : start + 3 + y.size ≤ x.size) :
    steadyBlock? x y start =
      some (Quad.ofFn fun j => (outputSum x y (y.size - 1 + start + j) : A)) := by
  -- the pairs and the tail take the taps of each output in two parts
  have hparts : ∀ j < 4, (outputSum x y (y.size - 1 + start + j) : A) =
      addTerms (tapProduct x y (start + j + (y.size - 1))) (start + j + 2 * (y.size / 2))
        (y.size % 2) (addTerms (tapProduct x y (start + j + (y.size - 1))) (start + j)
          (2 * (y.size / 2)) zero) := by
    intro j hj
    have houtput : y.size - 1 + start + j = start + j + (y.size - 1) := by omega
    have hfirst : start + j + (y.size - 1) + 1 - y.size = start + j := by omega
    have hcount : min x.size (start + j + (y.size - 1) + 1) - (start + j) =
        2 * (y.size / 2) + y.size % 2 := by omega
    rw [outputSum, houtput, hfirst, hcount, addTerms_add]
  rw [Quad.ofFn_congr hparts, ← steadyTail?_eq_some hx, steadyBlock?]
  by_cases htwo : 2 ≤ y.size
  · rw [if_pos htwo, Packed.read?_eq_some (by omega), Packed.read?_eq_some (by omega)]
    simp only [Option.bind_eq_bind, Option.bind_some]
    rw [steadyPairs?_eq_some hx y.size 0 (Packed.pairAt x start) (Packed.pairAt x (start + 1))
      (Quad.replicate zero) (fun _ => zero) (by omega) rfl rfl rfl]
    rfl
  · have hone : 2 * (y.size / 2) = 0 := by omega
    rw [if_neg htwo, hone]
    rfl

/-! ## All outputs -/

lemma phases_append {α : Type} (f : ℕ → α) {m n : ℕ} (hm : 0 < m) (hmn : m ≤ n) :
    (List.range' 0 (m - 1)).map f ++ (List.range' (m - 1) (n + 1 - m)).map f ++
      (List.range' n (m - 1)).map f = (List.range' 0 (n + m - 1)).map f := by
  have hsteady : List.range' 0 (m - 1) ++ List.range' (m - 1) (n + 1 - m) = List.range' 0 n := by
    have h := List.range'_append_1 (s := 0) (m := m - 1) (n := n + 1 - m)
    rwa [Nat.zero_add, show m - 1 + (n + 1 - m) = n by omega] at h
  have hdown : List.range' 0 n ++ List.range' n (m - 1) = List.range' 0 (n + m - 1) := by
    have h := List.range'_append_1 (s := 0) (m := n) (n := m - 1)
    rwa [Nat.zero_add, show n + (m - 1) = n + m - 1 by omega] at h
  rw [← List.map_append, ← List.map_append, hsteady, hdown]

lemma taps?_eq_some {x y : Array Int16} {n first last : ℕ} (hfirst : first = n + 1 - y.size)
    (hlast : last = min x.size (n + 1)) :
    taps? x y n first last = some (outputSum x y n : A) := by
  subst hfirst hlast
  exact tapsFrom?_eq_some _ _ _ fun i hi hlt => isTap_iff.2 (by omega)

lemma tapsPaired?_eq_some {x y : Array Int16} {n first last : ℕ} (hfirst : first = n + 1 - y.size)
    (hlast : last = min x.size (n + 1)) :
    tapsPaired? x y n first last = some (outputSum x y n : A) := by
  subst hfirst hlast
  exact tapsPairedFrom?_eq_some _ _ _ fun i hi hlt => isTap_iff.2 (by omega)

lemma scalarSums?_eq_some {x y : Array Int16} (hpos : 0 < y.size) (hle : y.size ≤ x.size) :
    scalarSums? x y =
      some ((List.range' 0 (x.size + y.size - 1)).map (outputSum x y : ℕ → A)) := by
  rw [scalarSums?,
    Buffer.tabulate?_eq_some fun n _ _ => taps?_eq_some (by omega) (by omega),
    Buffer.tabulate?_eq_some fun n _ _ => taps?_eq_some (by omega) (by omega),
    Buffer.tabulate?_eq_some fun n _ _ => taps?_eq_some (by omega) (by omega),
    ← phases_append _ hpos hle]
  rfl

lemma pairedSums?_eq_some {x y : Array Int16} (hpos : 0 < y.size) (hle : y.size ≤ x.size) :
    pairedSums? x y =
      some ((List.range' 0 (x.size + y.size - 1)).map (outputSum x y : ℕ → A)) := by
  -- the steady state is its blocks and then what is left of it
  have hsteady : (List.range' (y.size - 1) (x.size + 1 - y.size)).map (outputSum x y : ℕ → A) =
      ((List.range' 0 ((x.size + 1 - y.size) / 4)).map fun block =>
        Quad.ofFn fun j => outputSum x y (y.size - 1 + 4 * block + j)).flatMap Quad.toList ++
      (List.range' (y.size - 1 + 4 * ((x.size + 1 - y.size) / 4))
        ((x.size + 1 - y.size) % 4)).map (outputSum x y) := by
    rw [Quad.flatMap_ofFn, ← List.map_append, List.range'_append_1, Nat.div_add_mod]
  have hblocks : Buffer.tabulate? 0 ((x.size + 1 - y.size) / 4)
      (fun block => steadyBlock? x y (4 * block)) =
        some ((List.range' 0 ((x.size + 1 - y.size) / 4)).map fun block =>
          Quad.ofFn fun j => (outputSum x y (y.size - 1 + 4 * block + j) : A)) :=
    Buffer.tabulate?_eq_some fun block _ _ => steadyBlock?_eq_some hpos (by omega)
  unfold pairedSums?
  dsimp only
  rw [← phases_append _ hpos hle, hsteady, hblocks,
    Buffer.tabulate?_eq_some fun n _ _ => tapsPaired?_eq_some (by omega) (by omega),
    Buffer.tabulate?_eq_some fun n _ _ => tapsPaired?_eq_some (by omega) (by omega),
    Buffer.tabulate?_eq_some fun n _ _ => tapsPaired?_eq_some (by omega) (by omega),
    ← List.append_assoc]
  rfl

/-- In either width the kernel gives every output the sum of its taps. -/
theorem sums?_eq_some (lanes : Lanes) {x y : Array Int16} (hpos : 0 < y.size)
    (hle : y.size ≤ x.size) :
    sums? lanes x y =
      some ((List.range' 0 (x.size + y.size - 1)).map (outputSum x y : ℕ → A)) := by
  cases lanes with
  | one => exact scalarSums?_eq_some hpos hle
  | two => exact pairedSums?_eq_some hpos hle

end Wrapping

/-! ## The kernel -/

open Accumulator Wrapping

/-- The samples of the wrapping convolution: each exact sum without its fraction bits, modulo
`2 ^ 16`. -/
def wrappedSamples (a b : Array Int16) : Array Int16 :=
  ((List.range' 0 (outputLength a.size b.size)).map fun n =>
    Int16.ofInt (exactSum a b n / 2 ^ 15)).toArray

lemma size_wrappedSamples (a b : Array Int16) :
    (wrappedSamples a b).size = outputLength a.size b.size := by
  simp [wrappedSamples]

lemma wrappedSamples_of_empty {a b : Array Int16} (h : outputLength a.size b.size = 0) :
    wrappedSamples a b = #[] := by
  rw [← Array.size_eq_zero_iff, size_wrappedSamples, h]

lemma getElem?_wrappedSamples {a b : Array Int16} {n : ℕ} (hn : n < outputLength a.size b.size) :
    (wrappedSamples a b)[n]? = some (Int16.ofInt (exactSum a b n / 2 ^ 15)) := by
  simp [wrappedSamples, hn]

lemma finishWrapping_outputSum (x y : Array Int16) (n : ℕ) :
    Q15.finishWrapping (outputSum x y n) = Int16.ofInt (exactSum x y n / 2 ^ 15) := by
  rw [outputSum_eq_cast]
  exact Q15.finishWrapping_ofInt _

/-- In either width the kernel writes the samples of the convolution over the start of a
destination that holds them, and a shorter one is left as it was. -/
theorem wrapping_eq (lanes : Lanes) (a b destination : Array Int16) :
    wrapping lanes a b destination =
      if destination.size < outputLength a.size b.size then .outOfBounds destination
      else .done (Buffer.overlay (wrappedSamples a b) destination) := by
  have hx := size_longer a b
  have hy := size_shorter a b
  rw [wrapping, byLength_eq]
  dsimp only
  by_cases hempty : (shorter a b).size = 0
  · have hlength : outputLength a.size b.size = 0 := outputLength_of_empty (by omega)
    rw [if_pos (by simpa using hempty), if_neg (by omega), wrappedSamples_of_empty hlength,
      Buffer.overlay_empty]
  · have hlength : outputLength a.size b.size = (longer a b).size + (shorter a b).size - 1 := by
      rw [outputLength_of_pos (by omega) (by omega), hx, hy]
      omega
    rw [if_neg (by simpa using hempty), hlength]
    split_ifs with hshort
    · rfl
    · rw [sums?_eq_some lanes (by omega) (by omega)]
      simp only [List.map_map, wrappedSamples, hlength]
      congr 4
      funext n
      rw [Function.comp_apply, finishWrapping_outputSum, exactSum_longer_shorter]

/-- In a destination that is long enough the kernel leaves the samples of all outputs. -/
lemma exists_wrapped (lanes : Lanes) {a b destination : Array Int16} (ha : 0 < a.size)
    (hb : 0 < b.size) (hfit : outputLength a.size b.size ≤ destination.size) :
    ∃ output, wrapping lanes a b destination = .done output ∧
      ∀ n < a.size + b.size - 1,
        output[n]? = some (Int16.ofInt (exactSum a b n / 2 ^ 15)) := by
  have hsize := size_wrappedSamples a b
  refine ⟨_, (wrapping_eq lanes a b destination).trans (if_neg (Nat.not_lt.2 hfit)), ?_⟩
  intro n hn
  rw [← outputLength_of_pos ha hb] at hn
  rw [Buffer.getElem?_overlay_of_lt (by omega) (by omega), getElem?_wrappedSamples hn]

/-- **The wrapping convolution, call by call.**  An empty operand writes nothing, a destination
that is too short is reported and left alone, and otherwise sample `n` of the destination is the
one congruent modulo `2 ^ 16` to the exact sum without its fraction bits, with every later sample
kept.  The call never ends out of bounds in the last case, so no read or write leaves its
buffer, and nothing bounds the exact sums, so a wrapped accumulator does not show. -/
theorem wrapping_is_convolution_mod (lanes : Lanes) (a b destination : Array Int16) :
    (a.size = 0 ∨ b.size = 0 → wrapping lanes a b destination = .done destination) ∧
    (0 < a.size → 0 < b.size → destination.size < a.size + b.size - 1 →
      wrapping lanes a b destination = .outOfBounds destination) ∧
    (0 < a.size → 0 < b.size → a.size + b.size - 1 ≤ destination.size →
      ∃ output, wrapping lanes a b destination = .done output ∧
        output.size = destination.size ∧
        (∀ n < a.size + b.size - 1, ∀ sample : Int16,
          output[n]? = some sample ↔ sample.toInt ≡ exactSum a b n / 2 ^ 15 [ZMOD 2 ^ 16]) ∧
        ∀ n, a.size + b.size - 1 ≤ n → output[n]? = destination[n]?) := by
  have hwrap := wrapping_eq lanes a b destination
  refine ⟨?_, ?_, ?_⟩
  · intro hempty
    have hlength : outputLength a.size b.size = 0 := outputLength_of_empty hempty
    rw [hwrap, if_neg (by omega), wrappedSamples_of_empty hlength, Buffer.overlay_empty]
  · intro ha hb hshort
    rw [hwrap, outputLength_of_pos ha hb, if_pos hshort]
  · intro ha hb hfit
    have hlength : outputLength a.size b.size = a.size + b.size - 1 := outputLength_of_pos ha hb
    have hsize : (wrappedSamples a b).size = a.size + b.size - 1 := by
      rw [size_wrappedSamples, hlength]
    rw [hlength, if_neg (Nat.not_lt.2 hfit)] at hwrap
    refine ⟨_, hwrap, Buffer.size_overlay _ _, ?_, ?_⟩
    · intro n hn sample
      rw [Buffer.getElem?_overlay_of_lt (by rwa [hsize]) (by rwa [hsize]),
        getElem?_wrappedSamples (by rwa [hlength]), Option.some_inj]
      exact Q15.ofInt_eq_iff_modEq _ _
    · intro n hn
      exact Buffer.getElem?_overlay_of_le (by rwa [hsize])

/-- Three products of `2 ^ 30` overflow a 32-bit sum, and the sample is that of the exact one. -/
theorem wrapping_is_convolution_mod_past_overflow :
    exactSum #[-32768, -32768, -32768] #[-32768, -32768, -32768] 2 = 3 * 2 ^ 30 ∧
      ∃ output, wrapping .two #[-32768, -32768, -32768] #[-32768, -32768, -32768]
          #[1, 1, 1, 1, 1, 7] = .done output ∧
        output[2]? = some (-32768 : Int16) ∧ output[5]? = some (7 : Int16) := by
  have hsum : exactSum #[-32768, -32768, -32768] #[-32768, -32768, -32768] 2 = 3 * 2 ^ 30 := by
    decide
  obtain ⟨output, hdone, _, hsample, hrest⟩ :=
    (wrapping_is_convolution_mod .two #[-32768, -32768, -32768] #[-32768, -32768, -32768]
      #[1, 1, 1, 1, 1, 7]).2.2 (by decide) (by decide) (by decide)
  have hthird := (hsample 2 (by decide) (-32768)).2
  rw [hsum] at hthird
  exact ⟨hsum, output, hdone, hthird (by decide), hrest 5 (by decide)⟩

end SignalCore.Convolution
