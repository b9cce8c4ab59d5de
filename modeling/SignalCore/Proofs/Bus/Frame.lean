import SignalCore.Bus.Simulated
import Mathlib.Data.Nat.Digits.Defs
import Mathlib.Tactic.Common

/-!
# Coding and decoding of frames

What the coding functions put where.  `encodeWords_eq` gives the whole result of writing words
over a buffer: as many words as fit, in order, and the rest of the buffer as it was.  Whoever reads
them there finds the words again (`decodeWords_flatMap_bigEndian`), so nothing is lost but what does
not fit (`encodeWords_reads_back`).

A byte that `realign` has moved takes its low bit from the byte after it (`getD_realign`), so that
moving a stream that arrived one bit late gives the stream back, and only the last byte loses a bit
(`realign_lagged`).
-/

namespace SignalCore.Bus

/-! ## Headers and words -/

@[simp]
lemma length_bigEndian (word : UInt32) : (bigEndian word).length = 4 := rfl

lemma length_flatMap_bigEndian (words : List UInt32) :
    (words.flatMap bigEndian).length = 4 * words.length := by
  induction words with
  | nil => rfl
  | cons word words ih =>
    rw [List.flatMap_cons, List.length_append, ih, length_bigEndian, List.length_cons,
      Nat.mul_succ, Nat.add_comm]

/-- The bytes of a word are its digits to the base 256, the most significant one first. -/
lemma ofDigits_bigEndian (word : UInt32) :
    Nat.ofDigits 256 ((bigEndian word).reverse.map UInt8.toNat) = word.toNat := by
  have hword : word.toNat < 2 ^ 32 := word.toNat_lt
  have hdigits : (bigEndian word).reverse.map UInt8.toNat =
      [word.toNat % 256, word.toNat / 2 ^ 8 % 256, word.toNat / 2 ^ 16 % 256,
        word.toNat / 2 ^ 24 % 256] := by
    simp [bigEndian, Nat.shiftRight_eq_div_pow]
  rw [hdigits, Nat.ofDigits_cons, Nat.ofDigits_cons, Nat.ofDigits_cons, Nat.ofDigits_singleton]
  push_cast
  omega

/-- The word of the four bytes of a word. -/
lemma ofBigEndian_bigEndian (word : UInt32) :
    ofBigEndian (word >>> 24).toUInt8 (word >>> 16).toUInt8 (word >>> 8).toUInt8 word.toUInt8 =
      word := by
  apply UInt32.toBitVec_inj.1
  change ((word.toBitVec >>> 24).setWidth 8).setWidth 32 <<< 24 |||
      ((word.toBitVec >>> 16).setWidth 8).setWidth 32 <<< 16 |||
      ((word.toBitVec >>> 8).setWidth 8).setWidth 32 <<< 8 |||
      (word.toBitVec.setWidth 8).setWidth 32 = word.toBitVec
  ext i h
  -- each bit is in the one byte that is shifted to its place
  simp only [BitVec.getElem_or, BitVec.getElem_shiftLeft, BitVec.getElem_setWidth,
    BitVec.getLsbD_setWidth, BitVec.getLsbD_ushiftRight]
  rw [← BitVec.getLsbD_eq_getElem]
  grind

/-- A buffer with room for a header has it at its start and keeps the rest. -/
lemma encodeHeader_eq_done {buffer : List UInt8} (command : UInt8) (address : UInt32)
    (h : headerLength ≤ buffer.length) :
    encodeHeader buffer command address =
      .done (command :: (bigEndian address ++ buffer.drop headerLength)) := by
  cases buffer with
  | nil => simp [headerLength] at h
  | cons byte rest =>
    have hroom : ¬ rest.length < 4 := by
      simpa [headerLength] using h
    rw [encodeHeader, if_neg hroom]
    rfl

/-- Words are written for as long as whole words fit, and the rest of the buffer is kept. -/
theorem encodeWords_eq (words : List UInt32) (buffer : List UInt8) :
    encodeWords words buffer =
      let count := min words.length (buffer.length / 4)
      (4 * count, (words.take count).flatMap bigEndian ++ buffer.drop (4 * count)) := by
  fun_induction encodeWords words buffer with
  | case1 word words a b c d rest tail ih =>
    have hcount : min (word :: words).length ((a :: b :: c :: d :: rest).length / 4) =
        min words.length (rest.length / 4) + 1 := by
      simp only [List.length_cons]
      omega
    simp only [hcount, tail, ih, Nat.mul_succ, List.take_succ_cons, List.flatMap_cons,
      List.append_assoc, List.drop_succ_cons]
  | case2 words buffer hshort =>
    have hcount : min words.length (buffer.length / 4) = 0 := by
      rcases words with _ | ⟨word, words⟩
      · exact Nat.zero_min _
      · have hroom : buffer.length < 4 := by
          by_contra hlong
          obtain ⟨a, b, c, d, rest, rfl⟩ : ∃ a b c d rest, buffer = a :: b :: c :: d :: rest := by
            rcases buffer with _ | ⟨a, _ | ⟨b, _ | ⟨c, _ | ⟨d, rest⟩⟩⟩⟩ <;> simp at hlong ⊢
          exact hshort _ _ _ _ _ _ _ rfl rfl
        omega
    simp [hcount]

/-- Words that all fit are all written. -/
lemma encodeWords_of_le {words : List UInt32} {buffer : List UInt8}
    (h : 4 * words.length ≤ buffer.length) :
    encodeWords words buffer =
      (4 * words.length, words.flatMap bigEndian ++ buffer.drop (4 * words.length)) := by
  have hcount : min words.length (buffer.length / 4) = words.length := by omega
  rw [encodeWords_eq]
  simp only [hcount, List.take_length]

/-- The words of bytes, the most significant byte of each first.  Bytes that make up no whole word
at the end are left out. -/
def decodeWords : List UInt8 → List UInt32
  | a :: b :: c :: d :: rest => ofBigEndian a b c d :: decodeWords rest
  | _ => []

/-- Decoding gives back the words that were written. -/
theorem decodeWords_flatMap_bigEndian (words : List UInt32) :
    decodeWords (words.flatMap bigEndian) = words := by
  induction words with
  | nil => rfl
  | cons word words ih =>
    simp only [List.flatMap_cons, bigEndian, List.cons_append, List.nil_append, decodeWords,
      ofBigEndian_bigEndian, ih]

/-- Word `i` of a run of words stands at byte `4 * i`. -/
lemma take_drop_flatMap_bigEndian {words : List UInt32} {i : ℕ} (hi : i < words.length)
    (rest : List UInt8) :
    ((words.flatMap bigEndian ++ rest).drop (4 * i)).take 4 = bigEndian words[i] := by
  induction words generalizing i with
  | nil => exact absurd hi (Nat.not_lt_zero i)
  | cons word words ih =>
    rw [List.flatMap_cons, List.append_assoc]
    cases i with
    | zero => exact List.take_left' (length_bigEndian word)
    | succ i =>
      rw [Nat.mul_succ, Nat.add_comm, ← List.drop_drop, List.drop_left' (length_bigEndian word)]
      exact ih (Nat.lt_of_succ_lt_succ hi)

/-- **Words can be read back from where they were written.**  Whatever the words and whatever the
buffer, as many words are written as there are and as fit in whole, and the call says how many bytes
they take.  Those bytes decode to these words in order, each word standing at its place with its
digits to the base 256, the most significant one first.  The buffer keeps its length and all bytes
behind them, also those of a last part that is too short for a word. -/
theorem encodeWords_reads_back (words : List UInt32) (buffer : List UInt8) :
    ∃ count written, count = min words.length (buffer.length / 4) ∧
      encodeWords words buffer = (4 * count, written) ∧
      written.length = buffer.length ∧
      decodeWords (written.take (4 * count)) = words.take count ∧
      (∀ i < count, ∃ word, words[i]? = some word ∧
        Nat.ofDigits 256 (((written.drop (4 * i)).take 4).reverse.map UInt8.toNat) =
          word.toNat) ∧
      ∀ i, 4 * count ≤ i → written[i]? = buffer[i]? := by
  obtain ⟨count, hmin⟩ : ∃ count, count = min words.length (buffer.length / 4) := ⟨_, rfl⟩
  have hwritten := encodeWords_eq words buffer
  simp only [← hmin] at hwritten
  have hroom : 4 * count ≤ buffer.length := by omega
  have hcount : (words.take count).length = count := List.length_take_of_le (by omega)
  have hbytes : ((words.take count).flatMap bigEndian).length = 4 * count := by
    rw [length_flatMap_bigEndian, hcount]
  refine ⟨count, _, hmin, hwritten, ?_, ?_, ?_, ?_⟩
  · rw [List.length_append, hbytes, List.length_drop]
    omega
  · rw [List.take_left' hbytes, decodeWords_flatMap_bigEndian]
  · intro i hi
    have hword : i < words.length := by omega
    refine ⟨words[i], List.getElem?_eq_getElem hword, ?_⟩
    rw [take_drop_flatMap_bigEndian (hi.trans_eq hcount.symm), List.getElem_take,
      ofDigits_bigEndian]
  · intro i hi
    rw [List.getElem?_append_right (hbytes.le.trans hi), hbytes, List.getElem?_drop,
      Nat.add_sub_cancel' hi]

/-- Three words for a buffer that has room for two and half of a third. -/
theorem encodeWords_reads_back_of_short_buffer :
    ∃ written, encodeWords [0x11223344, 0xAABBCCDD, 5] [9, 9, 9, 9, 9, 9, 9, 9, 7, 6] =
        (8, written) ∧
      decodeWords (written.take 8) = [0x11223344, 0xAABBCCDD] ∧
      Nat.ofDigits 256 (((written.drop 4).take 4).reverse.map UInt8.toNat) = 0xAABBCCDD ∧
      written[9]? = some 6 := by
  obtain ⟨count, written, rfl, hwritten, -, hwords, hdigits, hkept⟩ :=
    encodeWords_reads_back [0x11223344, 0xAABBCCDD, 5] [9, 9, 9, 9, 9, 9, 9, 9, 7, 6]
  obtain ⟨word, hword, hvalue⟩ := hdigits 1 (by decide)
  obtain rfl : 0xAABBCCDD = word := Option.some_inj.1 hword
  exact ⟨written, hwritten, hwords, hvalue, hkept 9 (by decide)⟩

/-! ## Late answers -/

/-- A byte has its upper bits in the byte that carries them late, and its lowest bit in the
next. -/
lemma byte_of_late (previous byte next : UInt8) :
    ((previous <<< 7 ||| byte >>> 1) <<< 1) ||| ((byte <<< 7 ||| next >>> 1) >>> 7) = byte := by
  apply UInt8.toBitVec_inj.1
  ext i h
  rcases i with _ | i
  · simp
  · have hupper : i < 7 := by omega
    have hlower : ¬ 7 + (i + 1) < 8 := by omega
    have hnext : next.toBitVec.getLsbD (1 + (7 + (i + 1))) = false :=
      BitVec.getLsbD_of_ge _ _ (by omega)
    simp [hupper, hlower, hnext, Nat.add_comm 1 i, h]

/-- The last byte of a stream has no byte after it to carry its lowest bit. -/
lemma last_byte_of_late (previous byte : UInt8) :
    (previous <<< 7 ||| byte >>> 1) <<< 1 = byte >>> 1 <<< 1 := by
  apply UInt8.toBitVec_inj.1
  ext i h
  rcases i with _ | i
  · simp
  · have hupper : i < 7 := by omega
    simp [hupper]

@[simp]
lemma length_realign (bytes : List UInt8) : (realign bytes).length = bytes.length := by
  fun_induction realign bytes with
  | case1 | case2 => rfl
  | case3 byte next rest ih => simpa using ih

/-- A byte that is moved back takes its lowest bit from the byte after it, or a zero if it is the
last. -/
theorem getD_realign (bytes : List UInt8) (i : ℕ) :
    (realign bytes).getD i 0 = (bytes.getD i 0 <<< 1 ||| bytes.getD (i + 1) 0 >>> 7) := by
  fun_induction realign bytes generalizing i with
  | case1 => simp
  | case2 byte => cases i <;> simp
  | case3 byte next rest ih =>
    cases i with
    | zero => rfl
    | succ i => exact ih i

@[simp]
lemma length_lagged (previous : UInt8) (stream : List UInt8) :
    (Simulated.lagged previous stream).length = stream.length := by
  fun_induction Simulated.lagged previous stream with
  | case1 => rfl
  | case2 previous byte rest ih => simpa using ih

/-- A stream that arrived one bit late is the stream again when it is moved back, but for the
lowest bit of its last byte. -/
theorem realign_lagged (previous : UInt8) (stream : List UInt8) (last : UInt8) :
    realign (Simulated.lagged previous (stream ++ [last])) = stream ++ [last >>> 1 <<< 1] := by
  induction stream generalizing previous with
  | nil => simp [Simulated.lagged, realign, last_byte_of_late]
  | cons byte rest ih =>
    obtain ⟨next, tail, hrest⟩ : ∃ next tail, rest ++ [last] = next :: tail :=
      List.exists_cons_of_ne_nil (by simp)
    have htail := ih byte
    rw [hrest, Simulated.lagged] at htail
    rw [List.cons_append, hrest, Simulated.lagged, Simulated.lagged, realign, htail, byte_of_late,
      List.cons_append]

/-- Data between as many bytes as stand before them in an answer and one more byte are where they
are looked for. -/
lemma data_of_lagged {lead data : List UInt8} (previous last : UInt8)
    (hlead : lead.length = payloadOffset) :
    ((realign (Simulated.lagged previous (lead ++ data ++ [last]))).drop payloadOffset).take
      data.length = data := by
  rw [realign_lagged, List.append_assoc, ← hlead, List.drop_left, List.take_left]

end SignalCore.Bus
