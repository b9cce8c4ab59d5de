import SignalCore.Image.Block
import SignalCore.Loader.Action

/-!
# Loading an image into a core

The loader holds the core in reset while it writes the image into the core's memory block by
block, reads every frame back if it is asked to, and lets the core start only after the last
block is in place.  Every action stops at the first operation that fails.
-/

namespace SignalCore.Loader

/-! ## Control of the core -/

/-- Stop the core and pulse its reset line. -/
def resetCore : Action Unit := do
  Action.drive .fetch .low
  Action.drive .reset .low
  Action.drive .reset .high
  Action.note .info "core has been reset"

/-- Let the core run. -/
def startCore : Action Unit := do
  Action.drive .fetch .high
  Action.note .info "core started"

/-! ## Registers -/

/-- The value of a control register. -/
def readRegister (index : UInt8) : Action UInt8 := do
  match Bus.registerCommands[index.toNat]? with
  | none => Action.fail (.noRegister index)
  | some command =>
    Action.setSent (command :: List.replicate (Bus.registerLength - 1) 0)
    let answer ← Action.exchange Bus.registerLength
    let value ← Action.inBounds answer[Bus.registerOffset]?
    Action.note .debug ("register " ++ toString index ++ " = " ++ Text.Hex.byteText value)
    return value

/-! ## Blocks -/

/-- The first position from `offset` on at which two runs of bytes differ, with the bytes of both
runs there. -/
def firstDifference? (offset : Nat) : List UInt8 → List UInt8 → Option (Nat × UInt8 × UInt8)
  | expected :: restExpected, actual :: restActual =>
    if expected = actual then firstDifference? (offset + 1) restExpected restActual
    else some (offset, expected, actual)
  | _, _ => none

/-- Compare the words of a frame from number `w` on with an answer that was moved back, four bytes
of it for each word, up to the first word that differs.  There is no outcome if one of the words is
past the end of the answer. -/
def firstDifferentWord? (answer : List UInt8) :
    Nat → List Image.Entry → Option (Option (Nat × UInt8 × UInt8))
  | _, [] => some none
  | w, entry :: rest => do
    let actual ← slice? answer (Bus.payloadOffset + 4 * w) 4
    match firstDifference? (4 * w) (Bus.bigEndian entry.data) actual with
    | some difference => return some difference
    | none => firstDifferentWord? answer (w + 1) rest

/-- Read back a frame of `length` data bytes that was written at `address` and compare it with
what it should hold.  One byte more than the data is read, for the bit that comes last. -/
def verifyFrame (address : UInt32) (frame : List Image.Entry) (length : Nat) : Action Unit := do
  let total := Bus.payloadOffset + length + 1
  match Bus.encodeHeader (List.replicate total 0) Bus.readCommand address with
  | .done request =>
    Action.setSent request
    let answer := Bus.realign (← Action.exchange total)
    Action.setReceived answer
    match ← Action.inBounds (firstDifferentWord? answer 0 frame) with
    | none => return ()
    | some (offset, expected, actual) =>
      let mismatch : Mismatch := ⟨address, offset, expected, actual⟩
      Action.note .warn mismatch.message
      Action.fail (.verify mismatch)
  | .outOfBounds _ => throw .outOfBounds

/-- Send the words of a frame to the address of its first entry, and read them back if the loader
is set to. -/
def writeFrame (frame : List Image.Entry) : Action Unit := do
  match frame with
  | [] => return ()
  | first :: _ =>
    match Bus.encodeHeader (← get).sent.bytes Bus.writeCommand first.address with
    | .outOfBounds _ => throw .outOfBounds
    | .done buffer =>
      let (length, data) := Bus.encodeWords (frame.map (·.data)) (buffer.drop Bus.headerLength)
      Action.setSent (buffer.take Bus.headerLength ++ data)
      Action.note .info ("sending block " ++ Text.Hex.wordText first.address ++ " with " ++
        toString frame.length ++ " words")
      Action.write (Bus.headerLength + length)
      if (← get).readback then verifyFrame first.address frame length

/-- Send entries to the address of the first of them, in as many frames as they need.  Each frame
goes to the address of its own first entry. -/
def writeBlock (block : List Image.Entry) : Action Unit :=
  (Image.frames block).forM writeFrame

/-- Send entries block by block.  Gives the number of blocks. -/
def load (entries : List Image.Entry) : Action Nat := do
  (Image.blocks entries).forM writeBlock
  return (Image.blocks entries).length

/-! ## Starting a core -/

/-- Bring a core up with the first `count` entries of some slots: reset it, load them and start
it. -/
def bootEntries (count : Nat) (slots : List Image.Entry) : Action Unit := do
  resetCore
  let entries ← Action.inBounds (slice? slots 0 count)
  let blocks ← load entries
  Action.note .info ("loaded " ++ toString count ++ " entries in " ++ toString blocks ++
    " blocks")
  startCore

/-- Read an image into `slots` and bring a core up with it.  An image that cannot be read leaves
the core alone.  Gives the slots as the reading leaves them, beside the action. -/
def boot (image : String) (slots : List Image.Entry) : List Image.Entry × Action Unit :=
  let reading := Image.scan image slots
  (reading.slots, match reading.result with
    | .error error => Action.fail (.image error)
    | .ok count => bootEntries count reading.slots)

end SignalCore.Loader
