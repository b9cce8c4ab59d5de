import SignalCore.Outcome

/-!
# Frames of the load bus

A frame is a command byte, a 32-bit address, and for a write the data words; address and words go
out with the most significant byte first.  An answer to a read comes one bit late, so it is one
byte longer than the data, and `realign` moves it back.

* write: command, address, data
* read: command, address, dummy bytes, room for the data and one byte more
* register read: command, three bytes, room for the value
-/

namespace SignalCore.Bus

/-! ## Layout -/

/-- The command of a write. -/
def writeCommand : UInt8 := 0x02

/-- The command of a read. -/
def readCommand : UInt8 := 0x0B

/-- The commands that read the control registers, in the order of the registers. -/
def registerCommands : List UInt8 := [0x05, 0x07, 0x21, 0x30]

/-- The bytes of a command and an address. -/
def headerLength : Nat := 5

/-- The bytes between the header of a read and its data. -/
def dummyLength : Nat := 8

/-- The position of the data in the answer to a read. -/
def payloadOffset : Nat := headerLength + dummyLength

/-- The bytes of a register read. -/
def registerLength : Nat := 5

/-- The position of the value in the answer to a register read. -/
def registerOffset : Nat := 4

/-- The most words that are sent together. -/
def maxBlockWords : Nat := 256

/-- The most data bytes in a frame. -/
def maxPayloadLength : Nat := maxBlockWords * 4

/-- The bytes of the longest frame, the read of a full block. -/
def frameLength : Nat := payloadOffset + maxPayloadLength + 1

/-! ## Coding -/

/-- The bytes of a word, the most significant one first. -/
def bigEndian (word : UInt32) : List UInt8 :=
  [(word >>> 24).toUInt8, (word >>> 16).toUInt8, (word >>> 8).toUInt8, word.toUInt8]

/-- The word of four bytes, the most significant one first. -/
def ofBigEndian (a b c d : UInt8) : UInt32 :=
  (a.toUInt32 <<< 24) ||| (b.toUInt32 <<< 16) ||| (c.toUInt32 <<< 8) ||| d.toUInt32

/-- Write a command and an address over the start of a buffer.  The command goes in first, so it
stands in a buffer that is too short for the address. -/
def encodeHeader (buffer : List UInt8) (command : UInt8) (address : UInt32) :
    Outcome Empty (List UInt8) :=
  match buffer with
  | [] => .outOfBounds []
  | _ :: rest =>
    if rest.length < 4 then .outOfBounds (command :: rest)
    else .done (command :: (bigEndian address ++ rest.drop 4))

/-- Write words over the start of a buffer for as long as whole words fit.  Gives the number of
bytes written and the buffer. -/
def encodeWords : List UInt32 → List UInt8 → Nat × List UInt8
  | word :: words, _ :: _ :: _ :: _ :: rest =>
    let tail := encodeWords words rest
    (tail.1 + 4, bigEndian word ++ tail.2)
  | _, buffer => (0, buffer)

/-- Move a buffer one bit to the left, as one run of bits with the most significant bit of each
byte first.  The first bit is dropped and a zero comes in at the end. -/
def realign : List UInt8 → List UInt8
  | [] => []
  | [byte] => [byte <<< 1]
  | byte :: next :: rest => ((byte <<< 1) ||| (next >>> 7)) :: realign (next :: rest)

end SignalCore.Bus
