import SignalCore.Proofs.Loader.Placement
import Mathlib.Order.Bounds.Defs

/-!
# Comparing what was read back

The loader compares a frame word by word, with four bytes cut out of the answer for each word.  As
long as the answer holds every word of the frame, no cut is past its end, and the words differ first
where the data differ as one run of bytes (`firstDifferentWord?_eq_some`).

A comparison stops at the first difference, so what it gives is the least position where there is
one (`IsFirstDifference`).
-/

namespace SignalCore.Loader

open Image (Entry)

/-! ## Bytes -/

/-- Runs of the same length in which no difference is found are the same. -/
lemma firstDifference?_eq_none_iff {expected actual : List UInt8} (offset : ℕ)
    (hlength : expected.length = actual.length) :
    firstDifference? offset expected actual = none ↔ expected = actual := by
  induction expected generalizing actual offset with
  | nil =>
    have hactual : actual = [] := List.eq_nil_of_length_eq_zero hlength.symm
    simp [firstDifference?, hactual]
  | cons byte expected ih =>
    obtain ⟨byte', actual, rfl⟩ := List.exists_cons_of_length_eq_add_one hlength.symm
    rw [firstDifference?]
    split_ifs with hbyte
    · rw [ih _ (by simpa using hlength), hbyte, List.cons.injEq]
      exact (and_iff_right rfl).symm
    · simp [hbyte]

/-- The first difference of two runs is in their first parts, or else it is that of the rest. -/
lemma firstDifference?_append {expected actual : List UInt8} (offset : ℕ)
    (h : expected.length = actual.length) (expected' actual' : List UInt8) :
    firstDifference? offset (expected ++ expected') (actual ++ actual') =
      (firstDifference? offset expected actual).or
        (firstDifference? (offset + expected.length) expected' actual') := by
  induction expected generalizing actual offset with
  | nil =>
    obtain rfl : actual = [] := List.eq_nil_of_length_eq_zero h.symm
    rfl
  | cons byte expected ih =>
    obtain ⟨byte', actual, rfl⟩ := List.exists_cons_of_length_eq_add_one h.symm
    simp only [List.cons_append, firstDifference?]
    split_ifs
    · rw [ih (offset + 1) (by simpa using h), List.length_cons, Nat.add_right_comm, Nat.add_assoc]
    · rfl

/-! ## Words -/

/-- From any word on, the comparison finds what a comparison of all data that are left does. -/
lemma firstDifferentWord?_eq_some {answer : List UInt8} (w : ℕ) (frame : List Entry)
    (h : Bus.payloadOffset + 4 * (w + frame.length) ≤ answer.length) :
    firstDifferentWord? answer w frame =
      some (firstDifference? (4 * w) (payload frame)
        ((answer.drop (Bus.payloadOffset + 4 * w)).take (payload frame).length)) := by
  induction frame generalizing w with
  | nil => rfl
  | cons entry rest ih =>
    rw [List.length_cons] at h
    have hslice : slice? answer (Bus.payloadOffset + 4 * w) 4 =
        some ((answer.drop (Bus.payloadOffset + 4 * w)).take 4) := if_pos (by omega)
    have hword : (Bus.bigEndian entry.data).length =
        ((answer.drop (Bus.payloadOffset + 4 * w)).take 4).length := by
      rw [Bus.length_bigEndian, List.length_take, List.length_drop]
      omega
    have hrest : (answer.drop (Bus.payloadOffset + 4 * w)).drop 4 =
        answer.drop (Bus.payloadOffset + 4 * (w + 1)) := by
      rw [List.drop_drop, Nat.mul_succ, Nat.add_assoc]
    rw [firstDifferentWord?, hslice, payload_cons, List.length_append, Bus.length_bigEndian,
      List.take_add, hrest, firstDifference?_append _ hword, Bus.length_bigEndian, ← Nat.mul_succ]
    simp only [Option.bind_eq_bind, Option.bind_some]
    cases firstDifference? (4 * w) (Bus.bigEndian entry.data)
        ((answer.drop (Bus.payloadOffset + 4 * w)).take 4) with
    | some difference => rfl
    | none => exact ih (w + 1) (by omega)

/-! ## The first difference -/

/-- The first position at which what is received differs from the bytes that are expected. -/
def IsFirstDifference (expected : List UInt8) (received : ℕ → UInt8) (position : ℕ) : Prop :=
  IsLeast {p | p < expected.length ∧ received p ≠ expected.getD p 0} position

namespace IsFirstDifference

variable {byte : UInt8} {expected : List UInt8} {received received' : ℕ → UInt8} {position : ℕ}

lemma zero (h : received 0 ≠ byte) : IsFirstDifference (byte :: expected) received 0 :=
  ⟨⟨Nat.succ_pos _, h⟩, fun p _ => Nat.zero_le p⟩

lemma succ (hbyte : received 0 = byte)
    (h : IsFirstDifference expected (fun p => received (p + 1)) position) :
    IsFirstDifference (byte :: expected) received (position + 1) := by
  obtain ⟨⟨hposition, hdiffers⟩, hleast⟩ := h
  refine ⟨⟨Nat.succ_lt_succ hposition, hdiffers⟩, ?_⟩
  rintro (_ | p) ⟨hp, hp_differs⟩
  · exact absurd hbyte hp_differs
  · exact Nat.succ_le_succ (hleast ⟨Nat.lt_of_succ_lt_succ hp, hp_differs⟩)

/-- Only what is received in the place of the expected bytes matters. -/
lemma congr (hsame : ∀ p < expected.length, received p = received' p)
    (h : IsFirstDifference expected received position) :
    IsFirstDifference expected received' position := by
  have hset : {p | p < expected.length ∧ received' p ≠ expected.getD p 0} =
      {p | p < expected.length ∧ received p ≠ expected.getD p 0} := by
    ext p
    exact and_congr_right fun hp => by rw [hsame p hp]
  rwa [IsFirstDifference, hset]

end IsFirstDifference

/-- A comparison that finds a difference has found the first one. -/
theorem isFirstDifference_of_firstDifference? {offset position : ℕ} {expected actual : List UInt8}
    {byte byte' : UInt8}
    (h : firstDifference? offset expected actual = some (position, byte, byte')) :
    ∃ p, IsFirstDifference expected (actual.getD · 0) p ∧ position = offset + p ∧
      byte = expected.getD p 0 ∧ byte' = actual.getD p 0 := by
  -- the comparison counts from its offset, which moves on with the bytes
  fun_induction firstDifference? offset expected actual with
  | case1 offset byte restExpected restActual ih =>
    obtain ⟨p, hfirst, hposition, hbyte, hbyte'⟩ := ih h
    exact ⟨p + 1, hfirst.succ rfl, by omega, hbyte, hbyte'⟩
  | case2 offset expected restExpected actual restActual hdiffers =>
    cases h
    exact ⟨0, .zero (Ne.symm hdiffers), rfl, rfl, rfl⟩
  | case3 => cases h

end SignalCore.Loader
