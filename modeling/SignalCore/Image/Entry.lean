import SignalCore.Text.Blank
import SignalCore.Text.Hex
import SignalCore.Text.Line

/-!
# Entries of a stimulus image

An entry is a 32-bit word and the address that it belongs at.  It is written on one line as two
hexadecimal numbers with an underscore between them, such as `1C000084_DEADBEEF`; blanks around
the entry are ignored, but they count for the length of the line, which is limited.
-/

namespace SignalCore.Image

/-- A word and its address. -/
structure Entry where
  address : UInt32
  data : UInt32
deriving DecidableEq, Repr, Inhabited

namespace Entry

/-- The longest line that is read, in bytes. -/
def maxLineLength : Nat := 18

/-- The entry that a line spells.  Both numbers need at least one digit, and nothing but digits
may stand on either side of the first underscore. -/
def ofLine? (line : List Char) : Option Entry :=
  if maxLineLength < Text.utf8Length line then none
  else
    let text := Text.trim line
    match text.dropWhile (· ≠ '_') with
    | [] => none
    | _ :: data => do
      let address ← Text.Hex.word? (text.takeWhile (· ≠ '_'))
      let data ← Text.Hex.word? data
      return ⟨address, data⟩

end Entry

end SignalCore.Image
