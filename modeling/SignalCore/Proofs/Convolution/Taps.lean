import SignalCore.Proofs.Convolution.Wrapping

/-!
# The paired loops of the wrapping convolution, sum by sum

What a wrapping convolution writes is the low half of its sums, so two loops could differ in the
upper half of a sum and still write the same samples.  They do not: two taps in a step give the
sum of one tap in a step with all its bits, and so does each lane of a steady block
(`paired_sums_full_width`).

A read that leaves an operand makes a loop fail, and both loops fail on the same ranges: those that
hold a position at which one of the two samples is missing (`taps?_isSome_iff`,
`tapsPaired?_isSome_iff`).  A steady block reads the longer operand up to the third sample behind
the window that it starts with, whether the number of coefficients is even or odd, and fails just
when that sample is missing (`steadyBlock?_isSome_iff`).
-/

namespace SignalCore

namespace Convolution

namespace Wrapping

open Accumulator

variable {A : Type} [Accumulator A] {x y : Array Int16}

/-! ## Reads of taps -/

/-- Both samples of a tap are read just when it is one. -/
lemma isSome_readTap_iff {β : Type} (n k : ℕ) (next : Int16 → Int16 → Option β) :
    (do
      let a ← x[k]?
      let b ← if k ≤ n then y[n - k]? else none
      next a b).isSome ↔
      IsTap x y n k ∧ (next (x.getD k 0) (y.getD (n - k) 0)).isSome := by
  by_cases htap : IsTap x y n k
  · obtain ⟨hx, hn, hy⟩ := htap
    simp [IsTap, hx, hn, hy, Array.getD]
  · by_cases hx : k < x.size
    · by_cases hn : k ≤ n
      · have hy : ¬ n - k < y.size := fun hy => htap ⟨hx, hn, hy⟩
        simp [htap, hn, hy]
      · simp [htap, hn]
    · simp [htap, hx]

/-- Two taps are read as pairs just when both of them are taps. -/
lemma isSome_readPair_iff {β : Type} (n k : ℕ) (next : Packed → Packed → Option β) :
    (do
      let a ← Packed.read? x k
      let b ← if k ≤ n then Packed.readBack? y (n - k) else none
      next a b).isSome ↔
      (IsTap x y n k ∧ IsTap x y n (k + 1)) ∧
        (next (Packed.pairAt x k) (Packed.pairBackAt y (n - k))).isSome := by
  by_cases htaps : IsTap x y n k ∧ IsTap x y n (k + 1)
  · obtain ⟨⟨hx, hn, hy⟩, hx', hn', hy'⟩ := htaps
    have hback : Packed.readBack? y (n - k) = some (Packed.pairBackAt y (n - k)) :=
      Packed.readBack?_eq_some (by omega) hy
    simp [IsTap, hx, hn, hy, hx', hn', hy', Packed.read?_eq_some hx', hback]
  · by_cases hx : k + 1 < x.size
    · by_cases hn : k ≤ n
      · have hback : ¬ (Packed.readBack? y (n - k)).isSome := by
          rw [Packed.isSome_readBack?_iff]
          unfold IsTap at htaps
          omega
        simp [htaps, hn, Option.not_isSome_iff_eq_none.1 hback]
      · simp [htaps, hn]
    · have hread : ¬ (Packed.read? x k).isSome := by rwa [Packed.isSome_read?_iff]
      simp [htaps, Option.not_isSome_iff_eq_none.1 hread]

/-! ## Ranges of taps -/

lemma isTap_of_tapsFrom? {n : ℕ} (count k : ℕ) (sum : A)
    (h : (tapsFrom? x y n count k sum).isSome) :
    ∀ i, k ≤ i → i < k + count → IsTap x y n i := by
  fun_induction tapsFrom? x y n count k sum with
  | case1 => intro i hi hlt; omega
  | case2 count k sum ih =>
    rw [isSome_readTap_iff] at h
    intro i hi hlt
    by_cases hik : i = k
    · rw [hik]
      exact h.1
    · exact ih _ _ h.2 i (by omega) (by omega)

lemma isTap_of_tapsPairedFrom? {n : ℕ} (count k : ℕ) (sum : A)
    (h : (tapsPairedFrom? x y n count k sum).isSome) :
    ∀ i, k ≤ i → i < k + count → IsTap x y n i := by
  fun_induction tapsPairedFrom? x y n count k sum with
  | case1 => intro i hi hlt; omega
  | case2 k sum =>
    rw [isSome_readTap_iff] at h
    intro i hi hlt
    rw [show i = k by omega]
    exact h.1
  | case3 count k sum ih =>
    rw [isSome_readPair_iff] at h
    intro i hi hlt
    by_cases hpair : i = k ∨ i = k + 1
    · rcases hpair with rfl | rfl
      · exact h.1.1
      · exact h.1.2
    · exact ih _ _ h.2 i (by omega) (by omega)

lemma taps?_isSome_iff {n first last : ℕ} :
    (taps? x y n first last : Option A).isSome ↔
      ∀ k, first ≤ k → k < last → IsTap x y n k := by
  constructor
  · intro h k hk hlt
    exact isTap_of_tapsFrom? _ _ _ h k hk (by omega)
  · intro h
    rw [taps?, tapsFrom?_eq_some _ _ _ fun i hi hlt => h i hi (by omega)]
    rfl

lemma tapsPaired?_isSome_iff {n first last : ℕ} :
    (tapsPaired? x y n first last : Option A).isSome ↔
      ∀ k, first ≤ k → k < last → IsTap x y n k := by
  constructor
  · intro h k hk hlt
    exact isTap_of_tapsPairedFrom? _ _ _ h k hk (by omega)
  · intro h
    rw [tapsPaired?, tapsPairedFrom?_eq_some _ _ _ fun i hi hlt => h i hi (by omega)]
    rfl

/-- Over a range of taps both loops come to the sum of their products, as far as the accumulator can
hold it. -/
lemma taps?_and_tapsPaired?_eq_cast [Lawful A] {n first last : ℕ}
    (h : ∀ k, first ≤ k → k < last → IsTap x y n k) :
    taps? x y n first last =
        some (Lawful.cast (∑ k ∈ Finset.Ico first last, tapProduct x y n k) : A) ∧
      tapsPaired? x y n first last =
        some (Lawful.cast (∑ k ∈ Finset.Ico first last, tapProduct x y n k) : A) := by
  have htaps : ∀ i, first ≤ i → i < first + (last - first) → IsTap x y n i :=
    fun i hi hlt => h i hi (by omega)
  rw [taps?, tapsPaired?, tapsFrom?_eq_some _ _ _ htaps, tapsPairedFrom?_eq_some _ _ _ htaps,
    addTerms_zero_eq_cast, Finset.sum_Ico_eq_sum_range]
  exact ⟨rfl, rfl⟩

/-! ## Steady blocks -/

/-- The last pair of a steady block ends with the third sample behind the window of the first
lane. -/
lemma lt_size_of_steadyPairs? {start : ℕ} (left k : ℕ) (near next : Packed) (sums : Quad A)
    (htwo : 2 ≤ left) (h : (steadyPairs? x y start left k near next sums).isSome) :
    start + k + 2 * (left / 2) + 2 < x.size := by
  fun_induction steadyPairs? x y start left k near next sums with
  | case1 => omega
  | case2 => omega
  | case3 left k near next sums ih =>
    simp only [Option.isSome_iff_exists, Option.bind_eq_bind, Option.bind_eq_some_iff] at h ih
    obtain ⟨block, coefficients, -, third, -, fourth, hfourth, hrest⟩ := h
    have hread : start + k + 3 + 1 < x.size :=
      Packed.isSome_read?_iff.1 (Option.isSome_iff_exists.2 ⟨fourth, hfourth⟩)
    by_cases hlast : 2 ≤ left
    · have hnext := ih coefficients third fourth hlast ⟨block, hrest⟩
      omega
    · omega

lemma lt_size_of_steadyTail? {start : ℕ} (sums : Quad A) (hodd : y.size % 2 = 1)
    (h : (steadyTail? x y start sums).isSome) : start + y.size + 2 < x.size := by
  rw [steadyTail?, if_pos hodd] at h
  simp only [Option.isSome_iff_exists, Option.bind_eq_bind, Option.bind_eq_some_iff] at h
  obtain ⟨block, coefficient, -, a, -, b, -, c, -, d, hd, -⟩ := h
  have hread : start + (y.size - 1) + 3 < x.size := (Array.getElem?_eq_some_iff.1 hd).1
  omega

lemma steadyBlock?_isSome_iff {start : ℕ} (hpos : 0 < y.size) :
    (steadyBlock? x y start : Option (Quad A)).isSome ↔ start + 3 + y.size ≤ x.size := by
  constructor
  · intro h
    rw [steadyBlock?] at h
    by_cases htwo : 2 ≤ y.size
    · simp only [if_pos htwo, Option.isSome_iff_exists, Option.bind_eq_bind,
        Option.bind_eq_some_iff] at h
      obtain ⟨block, near, -, next, -, pairs, hpairs, htail⟩ := h
      have hlast := lt_size_of_steadyPairs? _ _ _ _ _ htwo
        (Option.isSome_iff_exists.2 ⟨pairs, hpairs⟩)
      by_cases hodd : y.size % 2 = 1
      · have := lt_size_of_steadyTail? _ hodd (Option.isSome_iff_exists.2 ⟨block, htail⟩)
        omega
      · omega
    · rw [if_neg htwo] at h
      have := lt_size_of_steadyTail? _ (by omega) h
      omega
  · intro hx
    rw [steadyBlock?_eq_some hpos hx]
    rfl

end Wrapping

open Wrapping

/-- **The paired sums are the plain ones, in all 32 bits.**  Over a range of taps, two taps in a
step and one tap in a step give the same sum, which is the exact one modulo `2 ^ 32`; over any
other range both leave an operand.  Each lane of a steady block is the sum of the taps of its
output, and a block leaves no operand just when its four windows lie inside the longer one. -/
theorem paired_sums_full_width (x y : Array Int16) (hpos : 0 < y.size) :
    (∀ n first last, (∀ k, first ≤ k → k < last → IsTap x y n k) →
      ∃ sum : Int32, taps? x y n first last = some sum ∧
        tapsPaired? x y n first last = some sum ∧
        sum = Int32.ofInt (∑ k ∈ Finset.Ico first last, tapProduct x y n k)) ∧
    (∀ n first last, (¬ ∀ k, first ≤ k → k < last → IsTap x y n k) →
      taps? x y n first last = (none : Option Int32) ∧
        tapsPaired? x y n first last = (none : Option Int32)) ∧
    (∀ start, start + 4 ≤ x.size + 1 - y.size → ∃ block : Quad Int32,
      steadyBlock? x y start = some block ∧
        ∀ j < 4, ∀ n, n = start + j + y.size - 1 → ∃ sum : Int32,
          block.toList[j]? = some sum ∧ taps? x y n (n + 1 - y.size) (n + 1) = some sum ∧
            sum = Int32.ofInt (exactSum x y n)) ∧
    ∀ start, ¬ start + 4 ≤ x.size + 1 - y.size →
      steadyBlock? x y start = (none : Option (Quad Int32)) := by
  refine ⟨?_, ?_, ?_, ?_⟩
  · intro n first last htaps
    obtain ⟨hplain, hpaired⟩ := taps?_and_tapsPaired?_eq_cast (A := Int32) htaps
    exact ⟨_, hplain, hpaired, rfl⟩
  · intro n first last hleaves
    constructor
    · rwa [← Option.not_isSome_iff_eq_none, taps?_isSome_iff]
    · rwa [← Option.not_isSome_iff_eq_none, tapsPaired?_isSome_iff]
  · intro start hstart
    refine ⟨_, steadyBlock?_eq_some hpos (by omega), ?_⟩
    intro j hj n hn
    have hlane : y.size - 1 + start + j = n := by omega
    refine ⟨outputSum x y n, ?_, taps?_eq_some rfl (by omega), outputSum_eq_cast x y n⟩
    rw [Quad.getElem?_toList_ofFn _ hj, hlane]
  · intro start hstart
    rw [← Option.not_isSome_iff_eq_none, steadyBlock?_isSome_iff hpos]
    omega

/-- Three products of `2 ^ 30` overflow 32 bits in every lane of a block, which reads the last
sample of the longer operand, and leave the same wrapped sum in all three loops. -/
theorem paired_sums_full_width_past_overflow :
    let x : Array Int16 := #[5, -32768, -32768, -32768, -32768, -32768, -32768]
    let y : Array Int16 := #[-32768, -32768, -32768]
    (∃ block : Quad Int32, steadyBlock? x y 1 = some block ∧
      block.toList[3]? = some (-1073741824 : Int32)) ∧
    taps? x y 6 4 7 = some (-1073741824 : Int32) ∧
    tapsPaired? x y 6 4 7 = some (-1073741824 : Int32) := by
  intro x y
  obtain ⟨hrange, -, hblock, -⟩ := paired_sums_full_width x y (by decide)
  have hexact : Int32.ofInt (exactSum x y 6) = -1073741824 := by decide
  obtain ⟨block, hsome, hlanes⟩ := hblock 1 (by decide)
  obtain ⟨sum, hlane, htaps, hsum⟩ := hlanes 3 (by decide) 6 rfl
  rw [hexact] at hsum
  obtain ⟨sum', htaps', hpaired, -⟩ := hrange 6 4 7 fun k hk hlt => by
    have hx : x.size = 7 := rfl
    have hy : y.size = 3 := rfl
    unfold IsTap
    omega
  have hsame : some sum = some sum' := htaps.symm.trans htaps'
  rw [← Option.some_inj.1 hsame] at hpaired
  subst hsum
  exact ⟨⟨block, hsome, hlane⟩, htaps, hpaired⟩

end Convolution

end SignalCore
