import SignalCore.Bus.Script
import SignalCore.Loader.Error
import SignalCore.Loader.FrameBuffer

/-!
# Actions of the loader

An action is a script of bus and pin operations that also reads and changes the loader and may
end early.  The loader is kept when an action ends early, so what was written into its buffers by
then stays there.
-/

namespace SignalCore

/-- The state of a loader between two operations. -/
structure Loader where
  /-- Every frame is read back and compared after it was written. -/
  readback : Bool
  /-- The frame that is sent. -/
  sent : Loader.FrameBuffer
  /-- The answer that is received. -/
  received : Loader.FrameBuffer

namespace Loader

/-- A loader that reads back what it writes. -/
def new : Loader := ⟨true, .zeros, .zeros⟩

/-- The loader with reading back switched on or off. -/
def withReadback (loader : Loader) (readback : Bool) : Loader :=
  { loader with readback }

/-- A script that works on a loader and may end early. -/
abbrev Action : Type → Type := ExceptT Halt (StateT Loader Bus.Script)

namespace Action

variable {α : Type}

/-- The script of an action that starts with a given loader. -/
def script (action : Action α) (loader : Loader) : Bus.Script (Except Halt α × Loader) :=
  ExceptT.run action loader

/-- End with an error. -/
def fail (error : Error) : Action α :=
  throw (.error error)

/-- Go on with a value that a check inside the frame buffers gave. -/
def inBounds : Option α → Action α
  | some value => pure value
  | none => throw .outOfBounds

/-- Make a note. -/
def note (severity : Bus.Severity) (text : String) : Action Unit :=
  ExceptT.lift (StateT.lift (.note ⟨severity, text⟩ (.done ())))

/-- Perform an operation and go on with its answer, or end with the error that `report` makes of
its fault. -/
def perform (operation : Bus.Operation) (report : Bus.Fault → Error) : Action operation.Reply := do
  match ← ExceptT.lift (StateT.lift (.perform operation .done)) with
  | .ok reply => return reply
  | .error fault => fail (report fault)

/-- Drive a control line. -/
def drive (line : Bus.Line) (level : Bus.Level) : Action Unit :=
  perform (.drive line level) .pin

/-- Write over the start of the frame that is sent. -/
def setSent (bytes : List UInt8) : Action Unit :=
  modify fun loader => { loader with sent := loader.sent.overlay bytes }

/-- Write over the start of the answer that is received. -/
def setReceived (bytes : List UInt8) : Action Unit :=
  modify fun loader => { loader with received := loader.received.overlay bytes }

/-- Send the first `count` bytes of the frame. -/
def write (count : Nat) : Action Unit := do
  let sent ← inBounds ((← get).sent.take? count)
  perform (.write sent) .bus

/-- Exchange the first `count` bytes of the frame for an answer of the same length, which takes
the place of zeros at the start of the received bytes. -/
def exchange (count : Nat) : Action (List UInt8) := do
  let sent ← inBounds ((← get).sent.take? count)
  let received ← inBounds ((← get).received.take? count)
  setReceived (received.map fun _ => 0)
  let reply ← perform (.transfer sent received.length) .bus
  setReceived reply.val
  return reply.val

end Action

end Loader

end SignalCore
