import SignalCore.Fixed.Basic
import SignalCore.Profile
import SignalCore.Samples.Basic

/-!
# Changes of sample format

Widening a sample puts zeros below it and is exact; narrowing one keeps its high half.  Floating
samples are single-precision numbers with one as the nominal full scale.
-/

namespace SignalCore

/-- The 32-bit sample of the same value. -/
def Q15.toQ31 (sample : Int16) : Int32 :=
  Int32.ofInt (sample.toInt <<< (16 : Nat))

/-- The high byte of a sample. -/
def Q15.toQ7 (sample : Int16) : Int8 :=
  Int8.ofInt (sample.toInt >>> (8 : Nat))

/-- The 16-bit sample of the same value. -/
def Q7.toQ15 (sample : Int8) : Int16 :=
  Int16.ofInt (sample.toInt <<< (8 : Nat))

/-- The magnitude of a 32-bit sample, with the largest one for minus one. -/
def Q31.abs (sample : Int32) : Int32 :=
  if sample = Int32.minValue then Int32.maxValue else Int32.ofInt sample.toInt.natAbs

/-- The floating sample of the same value. -/
def Q7.toFloat32 (sample : Int8) : Float32 :=
  sample.toFloat32 * Float32.ofBits 0x3C000000

/-- A number without its fraction, held in 32 bits; no number gives zero. -/
def Rounding.toInt32 : Rounding → Float32 → Int32
  | .towardZero, value => value.toInt32
  | .halfAwayFromZero, value => value.round.toInt32

/-- The sample for a floating one, which is scaled up, made whole and held at the rails. -/
def Q7.ofFloat32 (rounding : Rounding) (sample : Float32) : Int8 :=
  Q7.saturate (rounding.toInt32 (sample * Float32.ofBits 0x43000000)).toInt

end SignalCore
