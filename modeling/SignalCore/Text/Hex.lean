/-!
# Hexadecimal numbers

Numbers are read with digits of either case and written with lower-case ones.
-/

namespace SignalCore.Text.Hex

/-- The value of a hexadecimal digit of either case. -/
def digit? (c : Char) : Option Nat :=
  if '0' ≤ c ∧ c ≤ '9' then some (c.toNat - '0'.toNat)
  else if 'a' ≤ c ∧ c ≤ 'f' then some (c.toNat - 'a'.toNat + 10)
  else if 'A' ≤ c ∧ c ≤ 'F' then some (c.toNat - 'A'.toNat + 10)
  else none

/-- The value of a run of digits read after `value`, or `none` if one is no digit. -/
def valueFrom? (value : Nat) : List Char → Option Nat
  | [] => some value
  | c :: rest => do valueFrom? (16 * value + (← digit? c)) rest

/-- The value of a run of digits that is not empty. -/
def value? (digits : List Char) : Option Nat :=
  if digits.isEmpty then none else valueFrom? 0 digits

/-- The 32-bit word that a run of digits spells, if it fits. -/
def word? (digits : List Char) : Option UInt32 := do
  let value ← value? digits
  if value < UInt32.size then return UInt32.ofNat value else none

/-! ## Writing -/

/-- The last `width` digits of a number, zeros included. -/
def digits : Nat → Nat → List Char
  | 0, _ => []
  | width + 1, value => digits width (value / 16) ++ [Nat.digitChar (value % 16)]

/-- The digits of some bytes, two for each. -/
def ofBytes (bytes : List UInt8) : String :=
  String.ofList (bytes.flatMap fun byte => digits 2 byte.toNat)

/-- A byte with its base in front. -/
def byteText (byte : UInt8) : String :=
  "0x" ++ String.ofList (digits 2 byte.toNat)

/-- A word with its base in front. -/
def wordText (word : UInt32) : String :=
  "0x" ++ String.ofList (digits 8 word.toNat)

end SignalCore.Text.Hex
