/-!
# Fixed-point sample formats

A `Q15` sample is a signed 16-bit integer that stands for itself divided by `2 ^ 15`; a `Q7`
sample is the 8-bit analogue.  Numbers that leave the range of a format are brought back in one
of two ways: `clip` and the `saturate` functions hold them at the nearer rail, and
`Q15.finishWrapping` keeps the low sixteen bits.
-/

namespace SignalCore

/-- `value` held between two rails.  The lower rail is tested first, so it wins where the rails
are crossed, and a value that compares with neither rail is passed through. -/
def clip {α : Type} [LT α] [DecidableLT α] (value low high : α) : α :=
  if value < low then low else if high < value then high else value

/-- `value` shifted right arithmetically by `shift` and held in the range of a signed number of
`bits` bits. -/
def saturateShift (bits shift : Nat) (value : Int32) : Int32 :=
  let rail : Int := 1 <<< (bits - 1)
  Int32.ofInt (clip (value.toInt >>> shift) (-rail) (rail - 1))

/-! ## Sixteen-bit samples -/

namespace Q15

/-- The fraction bits of a sample, which is also the shift that brings a product of two samples
back to the format. -/
def fractionBits : Nat := 15

/-- The largest sample. -/
def maximum : Int16 := 32767

/-- The smallest sample, which stands for minus one. -/
def minimum : Int16 := -32768

/-- The sample nearest to one. -/
def one : Int16 := maximum

/-- One half. -/
def half : Int16 := 16384

/-- The sample nearest to `value`. -/
def saturate (value : Int) : Int16 :=
  Int16.ofInt (clip value minimum.toInt maximum.toInt)

/-- The sum of two samples, held at the rails. -/
def saturatingAdd (a b : Int16) : Int16 :=
  saturate (a.toInt + b.toInt)

/-- The sample for a 32-bit sum of products: the fraction bits are shifted out, and the low
sixteen bits of what is left are kept. -/
def finishWrapping (sum : Int32) : Int16 :=
  Int16.ofInt (sum.toInt >>> fractionBits)

/-- The sample for a 64-bit sum of products: the fraction bits are shifted out, and what is left
is held at the rails. -/
def finishSaturating (sum : Int64) : Int16 :=
  saturate (sum.toInt >>> fractionBits)

end Q15

/-! ## Eight-bit samples -/

namespace Q7

/-- The fraction bits of a sample. -/
def fractionBits : Nat := 7

/-- The sample nearest to `value`. -/
def saturate (value : Int) : Int8 :=
  Int8.ofInt (clip value (-128) 127)

end Q7

end SignalCore
