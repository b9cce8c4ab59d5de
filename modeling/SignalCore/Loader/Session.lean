import SignalCore.Bus.Simulated
import SignalCore.Loader.Basic

/-!
# Sessions

A session is one loader at work against one simulated device.  Each command is carried out to its
end or to its first failure, and a failing command does not end the session.  What a command does
to the device, its outcome and the events on the way are all that can be seen.
-/

namespace SignalCore.Loader

open Bus.Simulated (Settings)

/-! ## Commands -/

/-- New values for some of the settings of a device. -/
structure Adjustment where
  registers : Option (List UInt8)
  filler : Option UInt8
  lag : Option Bool
  dropWrites : Option Bool
  corruptions : Option (List (Nat × UInt8))
  busFaults : Option (List Nat)
  pinFaults : Option (List Nat)

/-- The settings with the new values put in. -/
def Adjustment.apply (adjustment : Adjustment) (settings : Settings) : Settings where
  registers := adjustment.registers.getD settings.registers
  filler := adjustment.filler.getD settings.filler
  lag := adjustment.lag.getD settings.lag
  dropWrites := adjustment.dropWrites.getD settings.dropWrites
  corruptions := adjustment.corruptions.getD settings.corruptions
  busFaults := adjustment.busFaults.getD settings.busFaults
  pinFaults := adjustment.pinFaults.getD settings.pinFaults

/-- Something that is done in a session. -/
inductive Command where
  | resetCore
  | startCore
  | readRegister (index : UInt8)
  | writeBlock (entries : List Image.Entry)
  | load (entries : List Image.Entry)
  /-- Boot from an image, with a number of empty slots for its entries. -/
  | boot (image : String) (capacity : Nat)
  | withReadback (readback : Bool)
  /-- Give the device up and let a new loader take it over. -/
  | release
  | adjust (adjustment : Adjustment)
  /-- Look at bytes of the memory. -/
  | peek (address : UInt32) (count : Nat)

/-! ## Results -/

/-- What a command gives. -/
inductive Answer where
  | nothing
  | number (value : Nat)
  | lines (lines : List Bus.Line)
  | bytes (bytes : List UInt8)
deriving DecidableEq, Repr

/-- How a command ended. -/
structure Step where
  outcome : Except Halt Answer
  events : List Bus.Event
  /-- The slots for entries, after a boot. -/
  slots : Option (List Image.Entry)

/-- A loader and the device that it is connected to. -/
structure Session where
  loader : Loader
  device : Bus.Simulated.State

namespace Session

/-- Carry out an action. -/
def act {α : Type} (session : Session) (action : Action α) (answer : α → Answer) :
    Step × Session :=
  let run := (action.script session.loader).run Bus.simulated session.device
  (⟨run.value.1.map answer, run.events, none⟩, ⟨run.value.2, run.device⟩)

/-- Carry out a command. -/
def step (session : Session) : Command → Step × Session
  | .resetCore => session.act resetCore fun _ => .nothing
  | .startCore => session.act startCore fun _ => .nothing
  | .readRegister index => session.act (readRegister index) fun value => .number value.toNat
  | .writeBlock entries => session.act (writeBlock entries) fun _ => .nothing
  | .load entries => session.act (load entries) .number
  | .boot image capacity =>
    let (slots, action) := boot image (List.replicate capacity ⟨0, 0⟩)
    let (step, session) := session.act action fun _ => .nothing
    ({ step with slots := some slots }, session)
  | .withReadback readback =>
    (⟨.ok .nothing, [], none⟩, { session with loader := session.loader.withReadback readback })
  | .release => (⟨.ok (.lines [.reset, .fetch]), [], none⟩, { session with loader := .new })
  | .adjust adjustment =>
    let settings := adjustment.apply session.device.settings
    (⟨.ok .nothing, [], none⟩, { session with device := { session.device with settings } })
  | .peek address count =>
    (⟨.ok (.bytes (session.device.memory.fetch address count)), [], none⟩, session)

/-- Carry out commands in order. -/
def steps (session : Session) : List Command → List Step
  | [] => []
  | command :: rest =>
    let (step, session) := session.step command
    step :: session.steps rest

/-- A new loader on a new device with some settings changed, and with reading back set if a
choice is given. -/
def start (adjustment : Adjustment) (readback : Option Bool) : Session where
  loader := Loader.new.withReadback (readback.getD Loader.new.readback)
  device := { settings := adjustment.apply {} }

end Session

end SignalCore.Loader
