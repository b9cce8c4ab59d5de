import SignalCore.Bus.Script
import SignalCore.Image.Scan
import SignalCore.Text.Hex

/-!
# Errors of the loader

An error names its cause, and one of the bus or of a pin carries the fault that was reported there.
The report of an error is a text for a person.
-/

namespace SignalCore.Loader

/-- The first byte at which memory was read back differently from what was written. -/
structure Mismatch where
  /-- The address of the frame that was written. -/
  address : UInt32
  /-- The position of the byte in the data of the frame. -/
  offset : Nat
  expected : UInt8
  actual : UInt8
deriving DecidableEq, Repr

/-- The report of a mismatch. -/
def Mismatch.message (mismatch : Mismatch) : String :=
  "readback mismatch at " ++ Text.Hex.wordText mismatch.address ++ "+" ++
    toString mismatch.offset ++ ": expected " ++ Text.Hex.byteText mismatch.expected ++
    ", got " ++ Text.Hex.byteText mismatch.actual

/-- Why the loader gave up. -/
inductive Error where
  /-- A bus operation failed with this fault. -/
  | bus (fault : Bus.Fault)
  /-- A pin operation failed with this fault. -/
  | pin (fault : Bus.Fault)
  /-- The image could not be read. -/
  | image (error : Image.Error)
  /-- Memory was not read back as it was written. -/
  | verify (mismatch : Mismatch)
  /-- There is no control register of this number. -/
  | noRegister (index : UInt8)
deriving DecidableEq, Repr

/-- The report of an error. -/
def Error.message : Error → String
  | bus fault => "spi bus error: " ++ fault.text
  | pin fault => "control pin error: " ++ fault.text
  | image error => error.message
  | verify mismatch => mismatch.message
  | noRegister index => "no control register " ++ toString index

/-- What ends an operation of the loader early. -/
inductive Halt where
  /-- The operation gives up. -/
  | error (error : Error)
  /-- The operation asked for bytes outside its frame buffer. -/
  | outOfBounds
deriving DecidableEq, Repr

end SignalCore.Loader
