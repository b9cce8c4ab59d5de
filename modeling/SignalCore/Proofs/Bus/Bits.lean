import SignalCore.Proofs.Bus.Frame
import Mathlib.Data.List.GetD
import Mathlib.Order.Nat

/-!
# Buffers as runs of bits

Read with the most significant bit of each byte first, a buffer is one run of bits (`bits`), and
`realign` does to this run what its name says: the first bit goes, every other bit moves up by one
place, and a zero comes in at the end (`bits_realign`).  `realign_shifts_bits` says so together with
what becomes of a stream that arrived one bit late.

The bytes can be moved in the buffer itself, from the front (`realignInPlace`).  A byte takes its
lowest bit from the byte after it, so the loop is right because it leaves what is behind the present
byte as it was (`foldl_moveByte`).
-/

namespace SignalCore.Bus

/-! ## Bits -/

/-- The bits of a byte, the most significant one first. -/
def byteBits (byte : UInt8) : List Bool :=
  (List.range 8).map byte.toBitVec.getMsbD

/-- The bits of a buffer, in the order in which they are on the bus. -/
def bits (buffer : List UInt8) : List Bool :=
  buffer.flatMap byteBits

lemma byteBits_eq_cons (byte : UInt8) :
    byteBits byte = byte.toBitVec.getMsbD 0 :: (byteBits byte).tail := rfl

@[simp]
lemma bits_nil : bits [] = [] := rfl

@[simp]
lemma bits_cons (byte : UInt8) (rest : List UInt8) :
    bits (byte :: rest) = byteBits byte ++ bits rest := rfl

/-- A byte that is moved up loses its first bit and takes in the first bit of the byte after it. -/
lemma byteBits_moved (byte next : UInt8) :
    byteBits (byte <<< 1 ||| next >>> 7) =
      (byteBits byte).tail ++ [next.toBitVec.getMsbD 0] := by
  simp [byteBits, List.range_succ, BitVec.getMsbD]

/-- The last byte takes in a zero. -/
lemma byteBits_shiftLeft (byte : UInt8) :
    byteBits (byte <<< 1) = (byteBits byte).tail ++ [false] := by
  have h := byteBits_moved byte 0
  simpa using h

/-- The first bit of a buffer is dropped and a zero comes in at the end. -/
theorem bits_realign (buffer : List UInt8) :
    bits (realign buffer) = (bits buffer ++ [false]).tail := by
  fun_induction realign buffer with
  | case1 => rfl
  | case2 byte =>
    rw [bits_cons, bits_nil, List.append_nil, byteBits_shiftLeft, bits_cons, bits_nil,
      List.append_nil, byteBits_eq_cons byte]
    rfl
  | case3 byte next rest ih =>
    have hfirst : next.toBitVec.getMsbD 0 :: (bits (next :: rest) ++ [false]).tail =
        bits (next :: rest) ++ [false] := rfl
    rw [bits_cons, ih, byteBits_moved, List.append_assoc, List.singleton_append, hfirst,
      bits_cons byte, byteBits_eq_cons byte]
    rfl

/-! ## Late streams -/

/-- Every byte of a late stream begins with the lowest bit of the byte before it. -/
lemma lagged_eq_map (previous : UInt8) (stream : List UInt8) :
    Simulated.lagged previous stream =
      (List.range stream.length).map fun i =>
        (if i = 0 then previous else stream.getD (i - 1) 0) <<< 7 ||| stream.getD i 0 >>> 1 := by
  induction stream generalizing previous with
  | nil => rfl
  | cons byte rest ih =>
    rw [Simulated.lagged, ih byte, List.length_cons, List.range_succ_eq_map, List.map_cons,
      List.map_map]
    congr 1
    refine List.map_congr_left fun i _ => ?_
    cases i <;> rfl

/-- A byte that loses its lowest bit on the way has a zero there. -/
lemma shiftRight_shiftLeft_one (byte : UInt8) : byte >>> 1 <<< 1 = byte &&& 0xFE := by
  have hbits : ∀ bits : BitVec 8, bits >>> 1 <<< 1 = bits &&& 0xFE := by decide
  exact UInt8.toBitVec_inj.1 (hbits byte.toBitVec)

/-! ## Moving bytes in place -/

/-- Move the byte at a position, which takes its lowest bit from the byte after it. -/
def moveByte (buffer : List UInt8) (i : ℕ) : List UInt8 :=
  buffer.set i (buffer.getD i 0 <<< 1 ||| buffer.getD (i + 1) 0 >>> 7)

/-- Move all bytes of a buffer in place from the front, and the last one, which has no byte after
it, on its own. -/
def realignInPlace (buffer : List UInt8) : List UInt8 :=
  ((List.range (buffer.length - 1)).foldl moveByte buffer).modify (buffer.length - 1) (· <<< 1)

/-- The step of the loop: if the bytes before a position have been moved and the rest is as it was,
the byte there is moved to what it comes to in the whole buffer. -/
lemma moveByte_moved (buffer : List UInt8) {i : ℕ} (hi : i < buffer.length) :
    moveByte ((realign buffer).take i ++ buffer.drop i) i =
      (realign buffer).take (i + 1) ++ buffer.drop (i + 1) := by
  have hmoved : i < (realign buffer).length := by rwa [length_realign]
  have hlength : ((realign buffer).take i).length = i := List.length_take_of_le hmoved.le
  have hread : ∀ j, i ≤ j → ((realign buffer).take i ++ buffer.drop i).getD j 0 =
      buffer.getD j 0 := by
    intro j hj
    rw [List.getD_append_right _ _ _ _ (by omega), hlength, List.getD_eq_getElem?_getD,
      List.getElem?_drop, Nat.add_sub_cancel' hj, List.getD_eq_getElem?_getD]
  have hbyte : buffer.getD i 0 <<< 1 ||| buffer.getD (i + 1) 0 >>> 7 = (realign buffer)[i] := by
    rw [← getD_realign, List.getD_eq_getElem]
  -- both bytes that are read stand behind the part that has been moved
  rw [moveByte, hread i le_rfl, hread (i + 1) (Nat.le_succ i), hbyte,
    List.set_append_right _ _ hlength.le, hlength, Nat.sub_self, List.drop_eq_getElem_cons hi,
    List.set_cons_zero, List.take_succ_eq_append_getElem hmoved, List.append_assoc,
    List.singleton_append]

/-- The run of the loop: after `count` bytes, these have been moved and the rest is as it was. -/
lemma foldl_moveByte (buffer : List UInt8) {count : ℕ} (hcount : count ≤ buffer.length) :
    (List.range count).foldl moveByte buffer =
      (realign buffer).take count ++ buffer.drop count := by
  induction count with
  | zero => rfl
  | succ count ih =>
    rw [List.range_succ, List.foldl_append, ih (by omega)]
    exact moveByte_moved buffer hcount

/-- No bit comes into the last byte. -/
lemma modify_last_eq_moveByte {buffer : List UInt8} {i : ℕ} (hi : buffer.length = i + 1) :
    buffer.modify i (· <<< 1) = moveByte buffer i := by
  have hlt : i < buffer.length := by omega
  have hafter : buffer.getD (i + 1) 0 = 0 := List.getD_eq_default _ _ hi.le
  have hnext : (0 : UInt8) >>> 7 = 0 := rfl
  rw [moveByte, hafter, hnext, UInt8.or_zero, List.getD_eq_getElem _ _ hlt,
    List.modify_eq_take_cons_drop hlt, List.set_eq_take_append_cons_drop, if_pos hlt]

/-- Moving the bytes in place comes to the same. -/
theorem realignInPlace_eq (buffer : List UInt8) : realignInPlace buffer = realign buffer := by
  obtain rfl | ⟨i, hi⟩ : buffer = [] ∨ ∃ i, buffer.length = i + 1 := by
    cases buffer with
    | nil => exact .inl rfl
    | cons byte rest => exact .inr ⟨rest.length, rfl⟩
  · rfl
  · have hlength : ((List.range i).foldl moveByte buffer).length = i + 1 := by
      rw [foldl_moveByte buffer (by omega), List.length_append, List.length_take,
        List.length_drop, length_realign]
      omega
    have hall : (List.range (i + 1)).foldl moveByte buffer = realign buffer := by
      rw [foldl_moveByte buffer hi.ge, List.take_of_length_le (by rw [length_realign, hi]),
        List.drop_of_length_le hi.le, List.append_nil]
    rw [realignInPlace, hi, Nat.add_sub_cancel, modify_last_eq_moveByte hlength, ← hall,
      List.range_succ, List.foldl_append]
    rfl

/-- **A late stream is moved back by one bit.**  As a run of bits, a buffer of any length and with
any contents loses its first bit and takes in a zero at the end, also if its bytes are moved in
place; an empty buffer stays empty.  A stream of at least one byte that arrived one bit late behind
any bit is therefore the stream again, but for the lowest bit of its last byte, which is cleared. -/
theorem realign_shifts_bits :
    (∀ buffer : List UInt8,
      bits (realign buffer) = (bits buffer ++ [false]).tail ∧
        (realign buffer).length = buffer.length ∧ realignInPlace buffer = realign buffer) ∧
      realign [] = [] ∧
      ∀ (incoming : Bool) (body : List UInt8) (last : UInt8),
        let stream := body ++ [last]
        let late := (List.range stream.length).map fun i =>
          (if i = 0 then incoming.toUInt8 else stream.getD (i - 1) 0) <<< 7 |||
            stream.getD i 0 >>> 1
        realign late = body ++ [last &&& 0xFE] := by
  refine ⟨?_, rfl, ?_⟩
  · intro buffer
    exact ⟨bits_realign buffer, length_realign buffer, realignInPlace_eq buffer⟩
  · intro incoming body last stream late
    have hlate : late = Simulated.lagged incoming.toUInt8 stream := (lagged_eq_map _ stream).symm
    rw [hlate, realign_lagged, shiftRight_shiftLeft_one]

/-- Four bytes and a zero, one bit late behind a zero. -/
example : realign [0x52, 0x9E, 0x7F, 0x80, 0x80] = [0xA5, 0x3C, 0xFF, 0x01, 0x00] := by decide

end SignalCore.Bus
