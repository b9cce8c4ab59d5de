import SignalCore.Image.Entry

/-!
# Reading a stimulus image

An image is a text with one entry to a line.  `scan` goes through the lines from the first on,
skips the blank ones, and puts the entry of each other line into the next of the slots that its
caller supplies.  It stops at the first line that is no entry and at the first entry for which no
slot is left.  The slots filled before it stopped stay filled, however it ended.
-/

namespace SignalCore.Image

/-- Why an image was not read to its end. -/
inductive Error where
  /-- The line of this number, counted from one over all lines, is no entry. -/
  | malformedLine (line : Nat)
  /-- No line holds an entry. -/
  | empty
  /-- There are more entries than slots. -/
  | tooManyEntries (capacity : Nat)
deriving DecidableEq, Repr

/-- The report of an error. -/
def Error.message : Error → String
  | malformedLine line => "malformed stimulus entry on line " ++ toString line
  | empty => "stimulus image is empty"
  | tooManyEntries capacity => "stimulus image exceeds " ++ toString capacity ++ " entries"

/-- How a reading ended, the number of entries on success, and the slots that it leaves. -/
structure Reading where
  result : Except Error Nat
  slots : List Entry

/-- Read lines that start with number `line` into `slots`, of which there were `capacity` before
`count` of them were filled. -/
def scanFrom (capacity : Nat) : Nat → Nat → List (List Char) → List Entry → Reading
  | _, count, [], slots => ⟨if count = 0 then .error .empty else .ok count, slots⟩
  | line, count, text :: rest, slots =>
    let text := Text.dropReturn text
    if text.all Text.isBlank then scanFrom capacity (line + 1) count rest slots
    else match Entry.ofLine? text, slots with
      | none, slots => ⟨.error (.malformedLine line), slots⟩
      | some _, [] => ⟨.error (.tooManyEntries capacity), []⟩
      | some entry, _ :: slots =>
        let reading := scanFrom capacity (line + 1) (count + 1) rest slots
        ⟨reading.result, entry :: reading.slots⟩

/-- Read the entries of an image into `slots`. -/
def scan (text : String) (slots : List Entry) : Reading :=
  scanFrom slots.length 1 0 (Text.splitLines text.toList) slots

end SignalCore.Image
