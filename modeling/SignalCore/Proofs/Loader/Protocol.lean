import SignalCore.Proofs.Loader.Action
import SignalCore.Proofs.Loader.Comparison

/-!
# What the loader does on the bus

A loader builds its frames in buffers that keep bytes of earlier ones.  The protocols here say what
it sends, what it expects and when it stops, and mention no buffer: a `Protocol` is a script that
may end early.

An action follows a protocol if, from every loader that reads back or does not as the protocol is
made for, it makes the same notes, performs the same operations under all answers, and ends the
same way (`Action.Follows`).  `follows_writeFrame` is the step, for a frame of any words that fits
into a buffer; `follows_load` and `follows_bootEntries` are the whole runs.  What is proved of the
protocols so holds of the loader, whatever its buffers hold, and no slice is ever out of bounds
along the way.
-/

namespace SignalCore.Loader

open Bus (Script)
open Image (Entry IsBlock)

/-- A script that may end early. -/
abbrev Protocol : Type → Type := ExceptT Halt Bus.Script

/-! ## The layout of frames -/

/-- The frame that writes entries to the address of the first of them. -/
def writeRequest (frame : List Entry) : List UInt8 :=
  Bus.writeCommand :: (Bus.bigEndian (startAddress frame) ++ payload frame)

/-- The length of the transfer that reads the words of a frame back. -/
def answerLength (frame : List Entry) : ℕ :=
  Bus.payloadOffset + (payload frame).length + 1

/-- The bytes that are sent to read the words of a frame back. -/
def readRequest (frame : List Entry) : List UInt8 :=
  Bus.readCommand :: (Bus.bigEndian (startAddress frame) ++
    List.replicate (Bus.dummyLength + (payload frame).length + 1) 0)

/-- The data in the answer to a read: moved back by the bit that it is late, and cut out. -/
def receivedData (frame : List Entry) (answer : List UInt8) : List UInt8 :=
  ((Bus.realign answer).drop Bus.payloadOffset).take (payload frame).length

/-- The note that is made before a frame is sent. -/
def announcement (frame : List Entry) : String :=
  "sending block " ++ Text.Hex.wordText (startAddress frame) ++ " with " ++
    toString frame.length ++ " words"

/-! ## Protocols -/

namespace Protocol

variable {α β : Type}

/-- The script of a protocol. -/
def script (protocol : Protocol α) : Script (Except Halt α) :=
  ExceptT.run protocol

/-- End with an error. -/
def fail (error : Error) : Protocol α :=
  throw (.error error)

/-- Make a note. -/
def note (severity : Bus.Severity) (text : String) : Protocol Unit :=
  ExceptT.lift (.note ⟨severity, text⟩ (.done ()))

/-- Perform an operation and go on with its answer, or end with the error that `report` makes of
its fault. -/
def perform (operation : Bus.Operation) (report : Bus.Fault → Error) :
    Protocol operation.Reply := do
  match ← ExceptT.lift (.perform operation .done) with
  | .ok reply => return reply
  | .error fault => fail (report fault)

/-- Drive a control line. -/
def drive (line : Bus.Line) (level : Bus.Level) : Protocol Unit :=
  perform (.drive line level) .pin

/-- Compare the data of an answer with the frame that was written. -/
def compare (frame : List Entry) (answer : List UInt8) : Protocol Unit :=
  match firstDifference? 0 (payload frame) (receivedData frame answer) with
  | none => return ()
  | some (offset, expected, actual) => do
    note .warn (Mismatch.message ⟨startAddress frame, offset, expected, actual⟩)
    fail (.verify ⟨startAddress frame, offset, expected, actual⟩)

/-- Read the words of a frame back and compare them. -/
def readBack (frame : List Entry) : Protocol Unit := do
  let answer ← perform (.transfer (readRequest frame) (answerLength frame)) .bus
  compare frame answer.val

/-- Write a frame, and read it back if asked to. -/
def frame (readback : Bool) (frame : List Entry) : Protocol Unit := do
  note .info (announcement frame)
  perform (.write (writeRequest frame)) .bus
  if readback then readBack frame

/-- Write blocks in order, each in one frame. -/
def frames (readback : Bool) (blocks : List (List Entry)) : Protocol Unit :=
  blocks.forM (frame readback)

/-- Write entries block by block.  Gives the number of blocks. -/
def load (readback : Bool) (entries : List Entry) : Protocol ℕ := do
  frames readback (Image.blocks entries)
  return (Image.blocks entries).length

/-- Stop the core and pulse its reset line. -/
def resetCore : Protocol Unit := do
  drive .fetch .low
  drive .reset .low
  drive .reset .high
  note .info "core has been reset"

/-- Let the core run. -/
def startCore : Protocol Unit := do
  drive .fetch .high
  note .info "core started"

/-- Reset the core, load entries and start it. -/
def bootEntries (readback : Bool) (count : ℕ) (entries : List Entry) : Protocol Unit := do
  resetCore
  let blocks ← load readback entries
  note .info ("loaded " ++ toString count ++ " entries in " ++ toString blocks ++ " blocks")
  startCore

/-- A protocol goes on after another, unless that one ended early. -/
lemma script_bind (protocol : Protocol α) (next : α → Protocol β) :
    (protocol >>= next).script =
      protocol.script.bind fun final =>
        match final with
        | .ok value => (next value).script
        | .error halt => .done (.error halt) := by
  change Script.bind _ _ = _
  congr 1
  funext final
  cases final <;> rfl

lemma script_note_bind (severity : Bus.Severity) (text : String) (next : Unit → Protocol α) :
    (note severity text >>= next).script = .note ⟨severity, text⟩ (next ()).script := rfl

lemma script_perform_bind (operation : Bus.Operation) (report : Bus.Fault → Error)
    (next : operation.Reply → Protocol α) :
    (perform operation report >>= next).script =
      .perform operation fun
        | .ok reply => (next reply).script
        | .error fault => .done (.error (.error (report fault))) := by
  change Script.perform _ _ = _
  congr 1
  funext reply
  cases reply <;> rfl

end Protocol

/-! ## Actions that follow a protocol -/

namespace Action

variable {α β : Type} {readback : Bool}

/-- From every loader with this setting, the action does what the protocol says and leaves the
setting as it is. -/
def Follows (readback : Bool) (action : Action α) (protocol : Protocol α) : Prop :=
  ∀ loader : Loader, loader.readback = readback →
    Script.Agree (fun final value => final.1 = value ∧ final.2.readback = readback)
      (action.script loader) protocol.script

namespace Follows

lemma pure (value : α) : Follows readback (pure value) (pure value) :=
  fun _ hloader => .done ⟨rfl, hloader⟩

lemma note (severity : Bus.Severity) (text : String) :
    Follows readback (note severity text) (Protocol.note severity text) :=
  fun _ hloader => .note _ (.done ⟨rfl, hloader⟩)

lemma drive (line : Bus.Line) (level : Bus.Level) :
    Follows readback (drive line level) (Protocol.drive line level) := by
  intro loader hloader
  refine .perform _ fun reply => ?_
  cases reply with
  | error fault => exact .done ⟨rfl, hloader⟩
  | ok reply => exact .done ⟨rfl, hloader⟩

lemma bind {action : Action α} {protocol : Protocol α} {next : α → Action β}
    {next' : α → Protocol β} (h : Follows readback action protocol)
    (hnext : ∀ value, Follows readback (next value) (next' value)) :
    Follows readback (action >>= next) (protocol >>= next') := by
  intro loader hloader
  rw [script_bind, Protocol.script_bind]
  refine (h loader hloader).bind ?_
  rintro ⟨result, after⟩ _ ⟨rfl, hafter⟩
  cases result with
  | ok value => exact hnext value after hafter
  | error halt => exact .done ⟨rfl, hafter⟩

lemma forM {items : List β} {act : β → Action Unit} {act' : β → Protocol Unit}
    (h : ∀ item ∈ items, Follows readback (act item) (act' item)) :
    Follows readback (items.forM act) (items.forM act') := by
  induction items with
  | nil => exact .pure ()
  | cons item items ih =>
    exact .bind (h item List.mem_cons_self) fun _ =>
      ih fun other hother => h other (List.mem_cons_of_mem _ hother)

end Follows

end Action

open Loader.Action (Follows)

variable {readback : Bool}

/-! ## Frames -/

lemma encodeHeader_replicate (command : UInt8) (address : UInt32) {count : ℕ}
    (h : Bus.headerLength ≤ count) :
    Bus.encodeHeader (List.replicate count 0) command address =
      .done
        (command :: (Bus.bigEndian address ++ List.replicate (count - Bus.headerLength) 0)) := by
  rw [Bus.encodeHeader_eq_done _ _ (by simpa using h), List.drop_replicate]

lemma length_readRequest (frame : List Entry) :
    (readRequest frame).length = answerLength frame := by
  simp only [readRequest, answerLength, Bus.payloadOffset, Bus.headerLength, List.length_cons,
    List.length_append, Bus.length_bigEndian, List.length_replicate]
  omega

lemma length_payload_le {frame : List Entry} (h : frame.length ≤ Bus.maxBlockWords) :
    (payload frame).length ≤ Bus.maxPayloadLength := by
  rw [length_payload, Bus.maxPayloadLength]
  omega

/-- In an answer of the length that was asked for, every word of a frame is where it is looked for,
and the words differ first where the data do. -/
theorem firstDifferentWord?_realign {frame : List Entry} {answer : List UInt8}
    (h : answer.length = answerLength frame) :
    firstDifferentWord? (Bus.realign answer) 0 frame =
      some (firstDifference? 0 (payload frame) (receivedData frame answer)) := by
  refine firstDifferentWord?_eq_some 0 frame ?_
  rw [Bus.length_realign, h, answerLength, length_payload, Nat.zero_add]
  omega

theorem follows_verifyFrame {frame : List Entry} (hlength : frame.length ≤ Bus.maxBlockWords) :
    Follows readback (verifyFrame (startAddress frame) frame (payload frame).length)
      (Protocol.readBack frame) := by
  intro loader hloader
  have hpayload := length_payload_le hlength
  have hroom : answerLength frame ≤ Bus.frameLength := by
    simp only [answerLength, Bus.frameLength]
    omega
  have hrequest : Bus.encodeHeader (List.replicate (answerLength frame) 0) Bus.readCommand
      (startAddress frame) = .done (readRequest frame) := by
    rw [encodeHeader_replicate, readRequest, answerLength, Bus.payloadOffset]
    · congr 5
      omega
    · simp only [answerLength, Bus.payloadOffset]
      omega
  have hsent : (loader.sent.overlay (readRequest frame)).take? (answerLength frame) =
      some (readRequest frame) := by
    rw [FrameBuffer.take?_overlay _ (by rw [length_readRequest]) (by rwa [length_readRequest]),
      List.take_of_length_le (by rw [length_readRequest])]
  have htotal : Bus.payloadOffset + (payload frame).length + 1 = answerLength frame := rfl
  rw [verifyFrame]
  simp only [htotal, hrequest, Action.script_setSent_bind]
  rw [Action.script_exchange_bind hroom hsent, Protocol.readBack, Protocol.script_perform_bind]
  refine .perform _ fun reply => ?_
  cases reply with
  | error fault => exact .done ⟨rfl, hloader⟩
  | ok reply =>
    simp only [firstDifferentWord?_realign reply.property, Action.script_setReceived_bind,
      Action.script_inBounds_bind]
    rw [Protocol.compare]
    cases firstDifference? 0 (payload frame) (receivedData frame reply.val) with
    | none => exact .done ⟨rfl, hloader⟩
    | some difference => exact .note _ (.done ⟨rfl, hloader⟩)

lemma length_writeRequest (frame : List Entry) :
    (writeRequest frame).length = Bus.headerLength + (payload frame).length := by
  simp only [writeRequest, Bus.headerLength, List.length_cons, List.length_append,
    Bus.length_bigEndian]
  omega

/-- The words of a frame that has room in a buffer, and what they leave of the buffer. -/
lemma encodeWords_data {frame : List Entry} {buffer : List UInt8}
    (h : (payload frame).length ≤ buffer.length) :
    Bus.encodeWords (frame.map (·.data)) buffer =
      ((payload frame).length, payload frame ++ buffer.drop (payload frame).length) := by
  rw [length_payload] at h ⊢
  rw [Bus.encodeWords_of_le (by rwa [List.length_map]), ← payload_eq_flatMap, List.length_map]

/-- The part of the buffer that is sent is the request, whatever stands behind it. -/
lemma take?_overlay_writeRequest (buffer : FrameBuffer) (frame : List Entry) {behind : List UInt8}
    (h : (writeRequest frame ++ behind).length ≤ Bus.frameLength) :
    (buffer.overlay (writeRequest frame ++ behind)).take?
        (Bus.headerLength + (payload frame).length) = some (writeRequest frame) := by
  rw [← length_writeRequest, FrameBuffer.take?_overlay _ _ h, List.take_left]
  rw [List.length_append]
  exact Nat.le_add_right _ _

theorem follows_writeFrame {frame : List Entry} (hne : frame ≠ [])
    (hlength : frame.length ≤ Bus.maxBlockWords) :
    Follows readback (writeFrame frame) (Protocol.frame readback frame) := by
  intro loader hloader
  have hpayload := length_payload_le hlength
  have hframe : Bus.headerLength + Bus.maxPayloadLength ≤ Bus.frameLength := by decide
  have hbytes : loader.sent.bytes.length = Bus.frameLength := loader.sent.length_eq
  have hroom : (payload frame).length ≤ (loader.sent.bytes.drop Bus.headerLength).length := by
    rw [List.length_drop]
    omega
  have hfit : (writeRequest frame ++ (loader.sent.bytes.drop Bus.headerLength).drop
      (payload frame).length).length ≤ Bus.frameLength := by
    rw [List.length_append, length_writeRequest, List.length_drop, List.length_drop]
    omega
  obtain ⟨first, rest, rfl⟩ := List.exists_cons_of_ne_nil hne
  -- the header is as long as the part of the buffer that is put in front of the words
  have htake : ∀ tail : List UInt8,
      (Bus.writeCommand :: (Bus.bigEndian first.address ++ tail)).take Bus.headerLength =
        Bus.writeCommand :: Bus.bigEndian first.address := fun _ => rfl
  have hdrop : ∀ tail : List UInt8,
      (Bus.writeCommand :: (Bus.bigEndian first.address ++ tail)).drop Bus.headerLength = tail :=
    fun _ => rfl
  have hrequest : Bus.writeCommand :: Bus.bigEndian first.address ++ payload (first :: rest) =
      writeRequest (first :: rest) := rfl
  rw [writeFrame, Action.script_get_bind,
    Bus.encodeHeader_eq_done _ _ (by rw [hbytes]; decide)]
  simp only [htake, hdrop, encodeWords_data hroom, ← List.append_assoc, hrequest,
    Action.script_setSent_bind, Action.script_note_bind]
  rw [Action.script_write_bind (take?_overlay_writeRequest _ _ hfit)]
  refine .note _ (.perform _ fun reply => ?_)
  cases reply with
  | error fault => exact .done ⟨rfl, hloader⟩
  | ok reply =>
    simp only [Action.script_get_bind, hloader]
    cases readback with
    | false => exact .done ⟨rfl, rfl⟩
    | true => exact follows_verifyFrame hlength _ rfl

/-! ## Whole runs -/

theorem follows_load (entries : List Entry) :
    Follows readback (load entries) (Protocol.load readback entries) := by
  refine .bind (.forM fun block hblock => ?_) fun _ => .pure _
  have h := Image.isBlock_of_mem_blocks hblock
  rw [writeBlock, h.frames_eq]
  simpa using follows_writeFrame h.ne_nil h.length_le

theorem follows_resetCore : Follows readback resetCore Protocol.resetCore :=
  .bind (.drive _ _) fun _ => .bind (.drive _ _) fun _ => .bind (.drive _ _) fun _ => .note _ _

theorem follows_startCore : Follows readback startCore Protocol.startCore :=
  .bind (.drive _ _) fun _ => .note _ _

theorem follows_bootEntries {count : ℕ} {slots : List Entry} (h : count ≤ slots.length) :
    Follows readback (bootEntries count slots)
      (Protocol.bootEntries readback count (slots.take count)) := by
  have hslice : slice? slots 0 count = some (slots.take count) := if_pos (by omega)
  rw [bootEntries, hslice]
  exact .bind follows_resetCore fun _ => .bind (follows_load (slots.take count)) fun _ =>
    .bind (.note _ _) fun _ => follows_startCore

end SignalCore.Loader
