import SignalCore.Fixed.Basic

/-!
# Packed pairs of samples

Two 16-bit samples travel in one 32-bit word: the low half holds the sample at the lower address,
the high half the next one.  `ofLanes` builds such a word and `low` and `high` take it apart;
`low_ofLanes` and `high_ofLanes` say that nothing is lost.
-/

namespace SignalCore

/-- A 32-bit word that holds two signed 16-bit samples, its lanes. -/
structure Packed where
  word : UInt32
deriving DecidableEq, Repr

namespace Packed

/-- The low half of the word, read with its sign. -/
def low (pair : Packed) : Int16 :=
  pair.word.toUInt16.toInt16

/-- The high half of the word, read with its sign. -/
def high (pair : Packed) : Int16 :=
  (pair.word >>> 16).toUInt16.toInt16

/-- The low sixteen bits of `upper` above the low sixteen bits of `lower`. -/
def pack (upper lower : Int32) : Packed :=
  ⟨(upper.toUInt32 <<< 16) ||| (lower.toUInt32 &&& 0xFFFF)⟩

/-- The word whose lanes are two given samples. -/
def ofLanes (low high : Int16) : Packed :=
  pack high.toInt32 low.toInt32

/-- The lanes of two words added one by one, each sum held at the rails. -/
def saturatingAdd (a b : Packed) : Packed :=
  ofLanes (Q15.saturatingAdd a.low b.low) (Q15.saturatingAdd a.high b.high)

/-! ## Lanes of a built word -/

/-- The mask of the low half, as a full half put into a word. -/
private theorem halfMask_eq : 0xFFFF#32 = (BitVec.allOnes 16).setWidth 32 := by decide

@[simp]
theorem low_ofLanes (low high : Int16) : (ofLanes low high).low = low := by
  apply Int16.toBitVec_inj.1
  change ((high.toBitVec.signExtend 32 <<< 16) |||
    (low.toBitVec.signExtend 32 &&& 0xFFFF#32)).setWidth 16 = low.toBitVec
  rw [halfMask_eq]
  ext i h
  simp [h, show i < 32 by omega, BitVec.getElem_signExtend, -BitVec.reduceAllOnes,
    -BitVec.reduceSetWidth]

@[simp]
theorem high_ofLanes (low high : Int16) : (ofLanes low high).high = high := by
  apply Int16.toBitVec_inj.1
  change (((high.toBitVec.signExtend 32 <<< 16) |||
    (low.toBitVec.signExtend 32 &&& 0xFFFF#32)) >>> 16).setWidth 16 = high.toBitVec
  rw [halfMask_eq]
  ext i h
  have upper : ¬ 16 + i < 16 := by omega
  simp [h, upper, show 16 + i < 32 by omega, BitVec.getElem_signExtend,
    -BitVec.reduceAllOnes, -BitVec.reduceSetWidth]

/-! ## Reading pairs from a buffer -/

/-- The pair of samples at `i` and `i + 1`, the earlier one in the low lane. -/
def read? (samples : Array Int16) (i : Nat) : Option Packed := do
  let low ← samples[i]?
  let high ← samples[i + 1]?
  return ofLanes low high

/-- The pair of samples at `i` and `i - 1`, the later one in the low lane. -/
def readBack? (samples : Array Int16) : Nat → Option Packed
  | 0 => none
  | i + 1 => do
    let low ← samples[i + 1]?
    let high ← samples[i]?
    return ofLanes low high

end Packed

end SignalCore
