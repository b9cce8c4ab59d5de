import SignalCore.Bus.Frame
import SignalCore.Bus.Script

/-!
# A simulated device

The device has a memory of bytes and four control registers.  It stores what write frames carry,
answers reads from its memory one bit late, and answers register reads at once.  Settings make it
misbehave: it can drop writes, flip bits of what it answers, and fail single operations, which are
numbered over the life of the device, bus and pin operations apart.
-/

namespace SignalCore.Bus.Simulated

/-! ## Memory -/

/-- The byte at each address. -/
abbrev Memory : Type := UInt32 → UInt8

namespace Memory

/-- Store bytes at ascending addresses. -/
def store (memory : Memory) (address : UInt32) (bytes : List UInt8) : Memory :=
  let table := bytes.toArray
  fun a => table[(a - address).toNat]?.getD (memory a)

/-- The bytes at ascending addresses. -/
def fetch (memory : Memory) (address : UInt32) (count : Nat) : List UInt8 :=
  (List.range count).map fun i => memory (address + UInt32.ofNat i)

end Memory

/-! ## State -/

/-- What can be set about a device. -/
structure Settings where
  /-- The values of the control registers. -/
  registers : List UInt8 := [17, 34, 51, 68]
  /-- The byte that is sent where there is nothing to say. -/
  filler : UInt8 := 0
  /-- Reads are answered one bit late. -/
  lag : Bool := true
  /-- Writes are accepted and lost. -/
  dropWrites : Bool := false
  /-- Positions in the data of an answer to a read, each with the bits that are flipped there. -/
  corruptions : List (Nat × UInt8) := []
  /-- The numbers of the bus operations that fail. -/
  busFaults : List Nat := []
  /-- The numbers of the pin operations that fail. -/
  pinFaults : List Nat := []

/-- A device between two operations. -/
structure State where
  settings : Settings := {}
  memory : Memory := fun _ => 0
  /-- The number of bus operations so far. -/
  busCount : Nat := 0
  /-- The number of pin operations so far. -/
  pinCount : Nat := 0

/-! ## Answers -/

/-- The first `count` of some bytes, with fillers where there are too few. -/
def padTo (count : Nat) (filler : UInt8) (bytes : List UInt8) : Received count :=
  ⟨(bytes ++ List.replicate count filler).take count, by simp⟩

/-- A stream as it arrives one bit late: each byte takes its high bit from the byte before. -/
def lagged (previous : UInt8) : List UInt8 → List UInt8
  | [] => []
  | byte :: rest => ((previous <<< 7) ||| (byte >>> 1)) :: lagged byte rest

/-- The payload with the bits of each corruption inside it flipped. -/
def corrupt (corruptions : List (Nat × UInt8)) (payload : List UInt8) : List UInt8 :=
  corruptions.foldl (fun bytes flip => bytes.modify flip.1 (· ^^^ flip.2)) payload

/-- The stream that answers a read of the memory at `address`. -/
def readStream (state : State) (address : UInt32) (count : Nat) : List UInt8 :=
  let payload := state.memory.fetch address (count - (payloadOffset + 1))
  List.replicate payloadOffset state.settings.filler ++
    corrupt state.settings.corruptions payload ++ [state.settings.filler]

/-- The stream that answers the command of a register read. -/
def registerStream (settings : Settings) (command : UInt8) (count : Nat) : List UInt8 :=
  match settings.registers[registerCommands.idxOf command]? with
  | some value => List.replicate (count - 1) settings.filler ++ [value]
  | none => []

/-- The bytes that are received while `sent` is sent. -/
def answer (state : State) (sent : List UInt8) (count : Nat) : Received count :=
  match sent with
  | command :: a :: b :: c :: d :: _ =>
    if command = readCommand then
      let stream := (padTo count state.settings.filler
        (readStream state (ofBigEndian a b c d) count)).val
      padTo count state.settings.filler (if state.settings.lag then lagged 0 stream else stream)
    else padTo count state.settings.filler (registerStream state.settings command count)
  | _ => padTo count state.settings.filler []

/-- The memory after a write of `sent`. -/
def written (state : State) (sent : List UInt8) : Memory :=
  match sent with
  | command :: a :: b :: c :: d :: payload =>
    if command = writeCommand ∧ ¬ state.settings.dropWrites then
      state.memory.store (ofBigEndian a b c d) payload
    else state.memory
  | _ => state.memory

/-- What is reported of a bus operation that fails. -/
def busFault : Fault := ⟨"BusFault"⟩

/-- What is reported of a pin operation that fails. -/
def pinFault : Fault := ⟨"PinFault"⟩

/-- How the device answers.  A failing operation is counted and has no other effect. -/
def respond : (operation : Operation) → State → Except Fault operation.Reply × State
  | .write sent, state =>
    let next := { state with busCount := state.busCount + 1 }
    if state.busCount ∈ state.settings.busFaults then (.error busFault, next)
    else (.ok (), { next with memory := written state sent })
  | .transfer sent received, state =>
    let next := { state with busCount := state.busCount + 1 }
    if state.busCount ∈ state.settings.busFaults then (.error busFault, next)
    else (.ok (answer state sent received), next)
  | .drive _ _, state =>
    let next := { state with pinCount := state.pinCount + 1 }
    if state.pinCount ∈ state.settings.pinFaults then (.error pinFault, next) else (.ok (), next)

end Simulated

/-- The simulated device. -/
def simulated : Device Simulated.State := ⟨Simulated.respond⟩

end SignalCore.Bus
