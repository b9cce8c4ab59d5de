import SignalCore.Proofs.Convolution.Saturating
import SignalCore.Proofs.Convolution.Wrapping
import SignalCore.Proofs.Fixed.Scaling

/-!
# Where the two convolutions agree

In buffers that are long enough both kernels finish the same exact sums, one modulo `2 ^ 16` and the
other at the rails, so they agree where the two finishes do (`kernels_agree_iff`).

Scaling the operands down keeps the sums small: operands shifted right by `bits` have every sum in
range if the shorter one has fewer than `4 ^ bits` samples (`abs_exactSum_scaledDown_lt`).  A shift
by the logarithm of the shorter length does that for two samples and more.  For a single sample it
is no shift at all, and one product is out of range, that of the lowest sample with itself
(`scaled_kernels_agree_iff`).
-/

namespace SignalCore.Convolution

open Saturating (Buffers)

/-! ## Operands that are scaled down -/

/-- Both kernels on operands that are scaled down, in buffers for the operands as they were. -/
lemma exists_scaled_outputs (lanes lanes' : Lanes) (bits : ℕ) {a b destination : Array Int16}
    {buffers : Buffers} (ha : 0 < a.size) (hb : 0 < b.size)
    (hshort : min a.size b.size < 2 ^ 33)
    (hdestination : outputLength a.size b.size ≤ destination.size) (hfit : buffers.Fit a b) :
    ∃ wrapped clamped,
      wrapping lanes (scaledDown bits a) (scaledDown bits b) destination = .done wrapped ∧
      saturating lanes' (scaledDown bits a) (scaledDown bits b) buffers = .done clamped ∧
      ∀ n < a.size + b.size - 1,
        wrapped[n]? =
          some (Int16.ofInt (exactSum (scaledDown bits a) (scaledDown bits b) n / 2 ^ 15)) ∧
        clamped.destination[n]? =
          some (Q15.saturate (exactSum (scaledDown bits a) (scaledDown bits b) n / 2 ^ 15)) := by
  have ha' : 0 < (scaledDown bits a).size := by simpa using ha
  have hb' : 0 < (scaledDown bits b).size := by simpa using hb
  have hfit' : buffers.Fit (scaledDown bits a) (scaledDown bits b) :=
    ⟨by simpa using hfit.destination, by simpa using hfit.padded, by simpa using hfit.reversed⟩
  obtain ⟨wrapped, hwrapped, hfast⟩ := exists_wrapped lanes ha' hb' (by simpa using hdestination)
  obtain ⟨clamped, hclamped, hprecise⟩ :=
    exists_clamped lanes' ha' hb' (by simpa using hshort) hfit'
  rw [size_scaledDown, size_scaledDown] at hfast hprecise
  exact ⟨wrapped, clamped, hwrapped, hclamped, fun n hn => ⟨hfast n hn, hprecise n hn⟩⟩

lemma ofInt_eq_saturate_of_abs_lt {sum : ℤ} (h : |sum| < 2 ^ 30) :
    Int16.ofInt (sum / 2 ^ 15) = Q15.saturate (sum / 2 ^ 15) := by
  rw [abs_lt] at h
  exact Q15.ofInt_eq_saturate (by omega) (by omega)

/-- Operands that are scaled down far enough for the shorter length keep every sum within the range
of the samples. -/
lemma abs_exactSum_scaledDown_lt {bits : ℕ} (hbits : bits ≤ 15) {a b : Array Int16}
    (hshort : min a.size b.size < 4 ^ bits) (n : ℕ) :
    |exactSum (scaledDown bits a) (scaledDown bits b) n| < 2 ^ 30 := by
  have hcount : ((min a.size b.size : ℕ) : ℤ) < 4 ^ bits := by exact_mod_cast hshort
  have hsum := abs_exactSum_le_mul (abs_valueAt_scaledDown_mul_le hbits a b) n
  rw [size_scaledDown, size_scaledDown] at hsum
  calc
    |exactSum (scaledDown bits a) (scaledDown bits b) n| ≤
        (min a.size b.size : ℕ) * 4 ^ (15 - bits) := hsum
    _ < 4 ^ bits * 4 ^ (15 - bits) := mul_lt_mul_of_pos_right hcount (by positivity)
    _ = 4 ^ 15 := by rw [← pow_add, Nat.add_sub_cancel' hbits]
    _ = 2 ^ 30 := by norm_num

lemma log2_lt_four_pow {length : ℕ} (hlength : 1 < length) : length < 4 ^ Nat.log2 length := by
  have hlog : 1 ≤ Nat.log2 length := (Nat.le_log2 (by omega)).2 hlength
  calc
    length < 2 ^ (Nat.log2 length + 1) := Nat.lt_log2_self
    _ ≤ 2 ^ (2 * Nat.log2 length) := Nat.pow_le_pow_right (by norm_num) (by omega)
    _ = 4 ^ Nat.log2 length := by rw [pow_mul]; norm_num

/-! ## A single sample -/

lemma abs_toInt_mul_lt {p : Int16} (hp : p ≠ Q15.minimum) (q : Int16) :
    |p.toInt * q.toInt| < 2 ^ 30 := by
  have hvalue : p.toInt ≠ -2 ^ 15 := fun h => hp (Int16.toInt_inj.1 h)
  have hleft : |p.toInt| < 2 ^ 15 :=
    abs_lt.2 ⟨lt_of_le_of_ne p.le_toInt hvalue.symm, p.toInt_lt⟩
  have hright : |q.toInt| ≤ 2 ^ 15 := abs_le.2 ⟨q.le_toInt, q.toInt_lt.le⟩
  calc
    |p.toInt * q.toInt| = |p.toInt| * |q.toInt| := abs_mul _ _
    _ ≤ |p.toInt| * 2 ^ 15 := mul_le_mul_of_nonneg_left hright (abs_nonneg _)
    _ < 2 ^ 15 * 2 ^ 15 := mul_lt_mul_of_pos_right hleft (by norm_num)
    _ = 2 ^ 30 := by norm_num

/-- Of the products of two samples, only that of the lowest one with itself is out of range. -/
lemma ofInt_product_eq_saturate_iff (p q : Int16) :
    Int16.ofInt (p.toInt * q.toInt / 2 ^ 15) = Q15.saturate (p.toInt * q.toInt / 2 ^ 15) ↔
      ¬ (p = Q15.minimum ∧ q = Q15.minimum) := by
  constructor
  · rintro hagree ⟨rfl, rfl⟩
    revert hagree
    decide
  · intro hnot
    rcases not_and_or.1 hnot with hp | hq
    · exact ofInt_eq_saturate_of_abs_lt (abs_toInt_mul_lt hp q)
    · rw [mul_comm]
      exact ofInt_eq_saturate_of_abs_lt (abs_toInt_mul_lt hq p)

/-- Against a single sample, the kernels disagree where both samples are the lowest. -/
lemma agree_iff_of_size_eq_one {x y : Array Int16} (hy : y.size = 1) :
    (∀ n < x.size,
        Int16.ofInt (exactSum x y n / 2 ^ 15) = Q15.saturate (exactSum x y n / 2 ^ 15)) ↔
      ¬ (Q15.minimum ∈ x ∧ Q15.minimum ∈ y) := by
  rw [mem_iff_getD, mem_iff_getD]
  constructor
  · rintro hagree ⟨⟨n, hn, hxn⟩, ⟨m, hm, hym⟩⟩
    obtain rfl : m = 0 := by omega
    have hsample := hagree n hn
    rw [exactSum_of_size_eq_one hy hn] at hsample
    exact (ofInt_product_eq_saturate_iff _ _).1 hsample ⟨hxn, hym⟩
  · intro hnot n hn
    rw [exactSum_of_size_eq_one hy hn]
    refine (ofInt_product_eq_saturate_iff _ _).2 ?_
    rintro ⟨hxn, hym⟩
    exact hnot ⟨⟨n, hn, hxn⟩, ⟨0, by omega, hym⟩⟩

lemma mem_longer_and_mem_shorter (sample : Int16) (a b : Array Int16) :
    (sample ∈ longer a b ∧ sample ∈ shorter a b) ↔ sample ∈ a ∧ sample ∈ b := by
  unfold longer shorter
  split_ifs
  · rfl
  · exact and_comm

/-! ## Agreement -/

/-- **Where the kernels agree.**  They give the same sample exactly where the exact sum without its
fraction bits is in the range of a sample or, beyond a rail, congruent to it modulo `2 ^ 16`.  They
agree everywhere on operands that are shifted right by one bit more than the logarithm of the
shorter length. -/
theorem kernels_agree_iff (lanes lanes' : Lanes) (a b destination : Array Int16)
    (buffers : Buffers) (ha : 0 < a.size) (hb : 0 < b.size)
    (hshort : min a.size b.size < 2 ^ 33)
    (hdestination : outputLength a.size b.size ≤ destination.size) (hfit : buffers.Fit a b) :
    (∃ wrapped clamped, wrapping lanes a b destination = .done wrapped ∧
      saturating lanes' a b buffers = .done clamped ∧
      ∀ n < a.size + b.size - 1, ∃ fast precise : Int16,
        wrapped[n]? = some fast ∧ clamped.destination[n]? = some precise ∧
        let v := exactSum a b n / 2 ^ 15
        fast = precise ↔
          (-32768 ≤ v ∧ v ≤ 32767) ∨ (32767 < v ∧ v ≡ 32767 [ZMOD 2 ^ 16]) ∨
            (v < -32768 ∧ v ≡ -32768 [ZMOD 2 ^ 16])) ∧
    (∀ bits, bits = Nat.log2 (min a.size b.size) + 1 → bits ≤ 15 → ∃ wrapped clamped,
        wrapping lanes (scaledDown bits a) (scaledDown bits b) destination = .done wrapped ∧
        saturating lanes' (scaledDown bits a) (scaledDown bits b) buffers = .done clamped ∧
        ∀ n < a.size + b.size - 1, ∃ sample : Int16,
          wrapped[n]? = some sample ∧ clamped.destination[n]? = some sample) := by
  constructor
  · obtain ⟨wrapped, hwrapped, hfast⟩ := exists_wrapped lanes ha hb hdestination
    obtain ⟨clamped, hclamped, hprecise⟩ := exists_clamped lanes' ha hb hshort hfit
    refine ⟨wrapped, clamped, hwrapped, hclamped, ?_⟩
    intro n hn
    exact ⟨_, _, hfast n hn, hprecise n hn, Q15.ofInt_eq_saturate_iff _⟩
  · intro bits hlog hbits
    have hlength : min a.size b.size < 4 ^ bits := by
      calc
        min a.size b.size < 2 ^ bits := by rw [hlog]; exact Nat.lt_log2_self
        _ ≤ 4 ^ bits := Nat.pow_le_pow_left (by norm_num) bits
    obtain ⟨wrapped, clamped, hwrapped, hclamped, hsamples⟩ :=
      exists_scaled_outputs lanes lanes' bits ha hb hshort hdestination hfit
    refine ⟨wrapped, clamped, hwrapped, hclamped, ?_⟩
    intro n hn
    obtain ⟨hfast, hprecise⟩ := hsamples n hn
    rw [← ofInt_eq_saturate_of_abs_lt (abs_exactSum_scaledDown_lt hbits hlength n)] at hprecise
    exact ⟨_, hfast, hprecise⟩

/-- A sum beyond the upper rail by a multiple of `2 ^ 16`, on which the kernels agree, and the same
operands scaled down by two bits. -/
theorem kernels_agree_iff_beyond_rail :
    let a : Array Int16 := #[-32768, -32768, -32768]
    let b : Array Int16 := #[-32768, -32768, -32767]
    let destination : Array Int16 := #[0, 0, 0, 0, 0]
    let buffers : Buffers := ⟨#[0, 0, 0, 0, 0], #[0, 0, 0, 0, 0, 0, 0], #[0, 0, 0]⟩
    exactSum a b 2 / 2 ^ 15 = 98303 ∧
      (∃ wrapped clamped, wrapping .two a b destination = .done wrapped ∧
        saturating .two a b buffers = .done clamped ∧
        ∃ sample : Int16, wrapped[2]? = some sample ∧ clamped.destination[2]? = some sample) ∧
      ∃ wrapped clamped,
        wrapping .two (scaledDown 2 a) (scaledDown 2 b) destination = .done wrapped ∧
        saturating .two (scaledDown 2 a) (scaledDown 2 b) buffers = .done clamped ∧
        ∀ n < 5, ∃ sample : Int16,
          wrapped[n]? = some sample ∧ clamped.destination[n]? = some sample := by
  intro a b destination buffers
  have hsum : exactSum a b 2 / 2 ^ 15 = 98303 := by decide
  have hfit : buffers.Fit a b := ⟨by decide, by decide, by decide⟩
  obtain ⟨⟨wrapped, clamped, hwrapped, hclamped, hsamples⟩, hscaled⟩ :=
    kernels_agree_iff .two .two a b destination buffers (by decide) (by decide) (by decide)
      (by decide) hfit
  obtain ⟨fast, precise, hfast, hprecise, hiff⟩ := hsamples 2 (by decide)
  have hsame : fast = precise := by
    refine hiff.2 ?_
    rw [hsum]
    exact .inr (.inl ⟨by decide, by decide⟩)
  rw [← hsame] at hprecise
  exact ⟨hsum, ⟨wrapped, clamped, hwrapped, hclamped, fast, hfast, hprecise⟩,
    hscaled 2 (by decide) (by decide)⟩

/-- **Agreement on operands that are shifted right by the logarithm of the shorter length.**  The
kernels then agree everywhere, but for a single sample against operands that both hold the lowest
one: its product with itself is one more than the largest sample. -/
theorem scaled_kernels_agree_iff (lanes lanes' : Lanes) (a b destination : Array Int16)
    (buffers : Buffers) (ha : 0 < a.size) (hb : 0 < b.size)
    (hshort : min a.size b.size ≤ 65535)
    (hdestination : outputLength a.size b.size ≤ destination.size) (hfit : buffers.Fit a b) :
    let bits := Nat.log2 (min a.size b.size)
    ∃ wrapped clamped,
      wrapping lanes (scaledDown bits a) (scaledDown bits b) destination = .done wrapped ∧
      saturating lanes' (scaledDown bits a) (scaledDown bits b) buffers = .done clamped ∧
      ((∀ n < a.size + b.size - 1, wrapped[n]? = clamped.destination[n]?) ↔
        ¬ (min a.size b.size = 1 ∧ Q15.minimum ∈ a ∧ Q15.minimum ∈ b)) := by
  intro bits
  obtain ⟨wrapped, clamped, hwrapped, hclamped, hsamples⟩ :=
    exists_scaled_outputs lanes lanes' bits ha hb (by omega) hdestination hfit
  refine ⟨wrapped, clamped, hwrapped, hclamped, ?_⟩
  have hsame : (∀ n < a.size + b.size - 1, wrapped[n]? = clamped.destination[n]?) ↔
      ∀ n < a.size + b.size - 1,
        Int16.ofInt (exactSum (scaledDown bits a) (scaledDown bits b) n / 2 ^ 15) =
          Q15.saturate (exactSum (scaledDown bits a) (scaledDown bits b) n / 2 ^ 15) := by
    refine forall₂_congr fun n hn => ?_
    rw [(hsamples n hn).1, (hsamples n hn).2, Option.some_inj]
  rw [hsame]
  by_cases hone : min a.size b.size = 1
  · have hbits : bits = 0 := congrArg Nat.log2 hone
    have hlength : a.size + b.size - 1 = (longer a b).size := by
      have := size_longer a b
      omega
    have hsingle : (shorter a b).size = 1 := by rw [size_shorter, hone]
    rw [hbits, scaledDown_zero, scaledDown_zero, hlength]
    have hagree := agree_iff_of_size_eq_one hsingle (x := longer a b)
    simp only [exactSum_longer_shorter, mem_longer_and_mem_shorter] at hagree
    simpa [hone] using hagree
  · have hlog : bits ≤ 15 := by
      have := (Nat.log2_lt (by omega : min a.size b.size ≠ 0)).2 (by omega : _ < 2 ^ 16)
      omega
    have hlength : min a.size b.size < 4 ^ bits := log2_lt_four_pow (by omega)
    constructor
    · rintro - ⟨hmin, -⟩
      exact hone hmin
    · intro _ n _
      exact ofInt_eq_saturate_of_abs_lt (abs_exactSum_scaledDown_lt hlog hlength n)

/-- Two samples on each side, all of them the lowest. -/
theorem scaled_kernels_agree_iff_of_two_lowest :
    let a : Array Int16 := #[-32768, -32768]
    let destination : Array Int16 := #[0, 0, 0]
    let buffers : Buffers := ⟨#[0, 0, 0], #[0, 0, 0, 0], #[0, 0]⟩
    ∃ wrapped clamped,
      wrapping .two (scaledDown 1 a) (scaledDown 1 a) destination = .done wrapped ∧
      saturating .two (scaledDown 1 a) (scaledDown 1 a) buffers = .done clamped ∧
      ∀ n < 3, wrapped[n]? = clamped.destination[n]? := by
  intro a destination buffers
  have hfit : buffers.Fit a a := ⟨by decide, by decide, by decide⟩
  have hlog : Nat.log2 (min a.size a.size) = 1 := by decide
  obtain ⟨wrapped, clamped, hwrapped, hclamped, hiff⟩ :=
    scaled_kernels_agree_iff .two .two a a destination buffers (by decide) (by decide) (by decide)
      (by decide) hfit
  rw [hlog] at hwrapped hclamped
  exact ⟨wrapped, clamped, hwrapped, hclamped, hiff.2 (by decide)⟩

/-- One lowest sample on each side: the shift is by nothing, and the kernels give the two rails. -/
theorem scaled_kernels_differ_on_lowest :
    let a : Array Int16 := #[-32768]
    let bits := Nat.log2 (min a.size a.size)
    wrapping .two (scaledDown bits a) (scaledDown bits a) #[0] = .done #[-32768] ∧
      saturating .two (scaledDown bits a) (scaledDown bits a) ⟨#[0], #[0], #[0]⟩ =
        .done ⟨#[32767], #[-32768], #[-32768]⟩ := by
  decide +kernel

end SignalCore.Convolution
