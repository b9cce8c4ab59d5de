import SignalCore.Proofs.Loader.Protocol

/-!
# What a device sees

Played against a device, an action ends in some way, leaves a trace of events and leaves the device
in some state.  The loader that it leaves is not part of this, so an action that follows a protocol
plays as the protocol does (`Action.Follows.play_eq`), and the theorems about loading are proved of
protocols.

A frame can come to nothing more than five endings: its write fails, it is not read back, its read
fails, or it is read back as it was written or not.  `FrameRun` lists them with all that is known in
each, and `frameRun_play` says that there are no others.  `LoadRun` and `loadRun_play` do the same
for the blocks of a load.
-/

namespace SignalCore.Loader

open Image (Entry)

variable {α β δ : Type}

/-! ## Playing actions and protocols -/

/-- What can be seen of an action from outside the loader: how it ended, what happened, and the
state that the device is left in. -/
def Action.play (action : Action α) (loader : Loader) (device : Bus.Device δ) (state : δ) :
    Bus.Run (Except Halt α) δ :=
  let run := (action.script loader).run device state
  ⟨run.value.1, run.events, run.device⟩

/-- A protocol played against a device. -/
def Protocol.play (protocol : Protocol α) (device : Bus.Device δ) (state : δ) :
    Bus.Run (Except Halt α) δ :=
  protocol.script.run device state

/-- An action that follows a protocol plays as the protocol does, whatever its buffers hold. -/
theorem Action.Follows.play_eq {action : Action α} {protocol : Protocol α} {loader : Loader}
    (h : Action.Follows loader.readback action protocol) (device : Bus.Device δ) (state : δ) :
    action.play loader device state = protocol.play device state := by
  obtain ⟨⟨hvalue, -⟩, hevents, hdevice⟩ := (h loader rfl).run device state
  rw [Action.play, Protocol.play, hvalue, hevents, hdevice]

namespace Protocol

variable {device : Bus.Device δ} {state : δ}

lemma play_pure (value : α) :
    (pure value : Protocol α).play device state = ⟨.ok value, [], state⟩ := rfl

lemma play_note_bind (severity : Bus.Severity) (text : String) (next : Unit → Protocol α) :
    (note severity text >>= next).play device state =
      let tail := (next ()).play device state
      ⟨tail.value, .noted ⟨severity, text⟩ :: tail.events, tail.device⟩ := rfl

/-- A protocol after one that did not end early. -/
lemma play_bind_of_ok {protocol : Protocol α} {next : α → Protocol β} {value : α}
    (h : (protocol.play device state).value = .ok value) :
    (protocol >>= next).play device state =
      let head := protocol.play device state
      let tail := (next value).play device head.device
      ⟨tail.value, head.events ++ tail.events, tail.device⟩ := by
  rw [play] at h
  rw [play, script_bind, Bus.Script.run_bind]
  simp only [h]
  rfl

/-- Nothing comes after a protocol that ended early. -/
lemma play_bind_of_error {protocol : Protocol α} {next : α → Protocol β} {halt : Halt}
    (h : (protocol.play device state).value = .error halt) :
    (protocol >>= next).play device state =
      let head := protocol.play device state
      ⟨.error halt, head.events, head.device⟩ := by
  rw [play] at h
  rw [play, script_bind, Bus.Script.run_bind]
  simp only [h, Bus.Script.run, List.append_nil]
  rfl

section Perform

variable {operation : Bus.Operation} {report : Bus.Fault → Error}
  {next : operation.Reply → Protocol α} {after : δ}

lemma play_perform_bind_of_ok {reply : operation.Reply}
    (h : device.respond operation state = (.ok reply, after)) :
    (perform operation report >>= next).play device state =
      let tail := (next reply).play device after
      ⟨tail.value, .answered operation reply :: tail.events, tail.device⟩ := by
  rw [play, script_perform_bind, Bus.Script.run]
  simp only [h]
  rfl

lemma play_perform_bind_of_error {fault : Bus.Fault}
    (h : device.respond operation state = (.error fault, after)) :
    (perform operation report >>= next).play device state =
      ⟨.error (.error (report fault)), [.failed operation], after⟩ := by
  rw [play, script_perform_bind, Bus.Script.run]
  simp only [h]
  rfl

end Perform

end Protocol

/-! ## The run of a frame -/

/-- The note that is made before a frame is written. -/
def announced (frame : List Entry) : Bus.Event :=
  .noted ⟨.info, announcement frame⟩

/-- The operation that writes a frame. -/
abbrev writeOperation (frame : List Entry) : Bus.Operation :=
  .write (writeRequest frame)

/-- The operation that reads a frame back. -/
abbrev readOperation (frame : List Entry) : Bus.Operation :=
  .transfer (readRequest frame) (answerLength frame)

lemma length_receivedData {frame : List Entry} {answer : List UInt8}
    (h : answer.length = answerLength frame) :
    (receivedData frame answer).length = (payload frame).length := by
  rw [receivedData, List.length_take, List.length_drop, Bus.length_realign, h, answerLength]
  omega

/-- The runs that a frame can have against a device. -/
inductive FrameRun (device : Bus.Device δ) (readback : Bool) (frame : List Entry) (state : δ) :
    Bus.Run (Except Halt Unit) δ → Prop
  /-- The write fails. -/
  | writeFailed {after : δ} {fault : Bus.Fault}
      (hwrite : device.respond (writeOperation frame) state = (.error fault, after)) :
      FrameRun device readback frame state
        ⟨.error (.error (.bus fault)), [announced frame, .failed (writeOperation frame)], after⟩
  /-- The frame is written and not read back. -/
  | unread {after : δ} (hoff : readback = false)
      (hwrite : device.respond (writeOperation frame) state = (.ok (), after)) :
      FrameRun device readback frame state
        ⟨.ok (), [announced frame, .answered (writeOperation frame) ()], after⟩
  /-- The read fails. -/
  | readFailed {middle after : δ} {fault : Bus.Fault} (hon : readback = true)
      (hwrite : device.respond (writeOperation frame) state = (.ok (), middle))
      (hread : device.respond (readOperation frame) middle = (.error fault, after)) :
      FrameRun device readback frame state
        ⟨.error (.error (.bus fault)), [announced frame, .answered (writeOperation frame) (),
          .failed (readOperation frame)], after⟩
  /-- The frame is read back as it was written. -/
  | matched {middle after : δ} {answer : Bus.Received (answerLength frame)} (hon : readback = true)
      (hwrite : device.respond (writeOperation frame) state = (.ok (), middle))
      (hread : device.respond (readOperation frame) middle = (.ok answer, after))
      (hdata : receivedData frame answer.val = payload frame) :
      FrameRun device readback frame state
        ⟨.ok (), [announced frame, .answered (writeOperation frame) (),
          .answered (readOperation frame) answer], after⟩
  /-- The frame is read back otherwise than it was written. -/
  | mismatched {middle after : δ} {answer : Bus.Received (answerLength frame)} {offset : ℕ}
      {expected actual : UInt8} (hon : readback = true)
      (hwrite : device.respond (writeOperation frame) state = (.ok (), middle))
      (hread : device.respond (readOperation frame) middle = (.ok answer, after))
      (hdata : receivedData frame answer.val ≠ payload frame)
      (hfirst : firstDifference? 0 (payload frame) (receivedData frame answer.val) =
        some (offset, expected, actual)) :
      FrameRun device readback frame state
        ⟨.error (.error (.verify ⟨startAddress frame, offset, expected, actual⟩)),
          [announced frame, .answered (writeOperation frame) (),
            .answered (readOperation frame) answer,
            .noted ⟨.warn, Mismatch.message ⟨startAddress frame, offset, expected, actual⟩⟩],
          after⟩

/-- A frame has no other runs. -/
theorem frameRun_play (device : Bus.Device δ) (readback : Bool) (frame : List Entry) (state : δ) :
    FrameRun device readback frame state ((Protocol.frame readback frame).play device state) := by
  rw [Protocol.frame, Protocol.play_note_bind]
  obtain ⟨reply, middle, hwrite⟩ : ∃ reply middle,
      device.respond (writeOperation frame) state = (reply, middle) := ⟨_, _, rfl⟩
  cases reply with
  | error fault =>
    rw [Protocol.play_perform_bind_of_error hwrite]
    exact .writeFailed hwrite
  | ok reply =>
    rw [Protocol.play_perform_bind_of_ok hwrite]
    cases readback with
    | false => exact .unread rfl hwrite
    | true =>
      obtain ⟨answer, after, hread⟩ : ∃ answer after,
          device.respond (readOperation frame) middle = (answer, after) := ⟨_, _, rfl⟩
      rw [if_pos rfl, Protocol.readBack]
      cases answer with
      | error fault =>
        rw [Protocol.play_perform_bind_of_error hread]
        exact .readFailed rfl hwrite hread
      | ok answer =>
        rw [Protocol.play_perform_bind_of_ok hread, Protocol.compare]
        have hlength := (length_receivedData answer.property).symm
        cases hfirst : firstDifference? 0 (payload frame) (receivedData frame answer.val) with
        | none =>
          exact .matched rfl hwrite hread ((firstDifference?_eq_none_iff 0 hlength).1 hfirst).symm
        | some difference =>
          have hdata : receivedData frame answer.val ≠ payload frame := by
            intro hsame
            rw [(firstDifference?_eq_none_iff 0 hlength).2 hsame.symm] at hfirst
            cases hfirst
          exact .mismatched rfl hwrite hread hdata hfirst

/-! ## The run of a load -/

/-- The runs that blocks can have against a device, one frame after the other.  The first frame
that fails is the last. -/
inductive LoadRun (device : Bus.Device δ) (readback : Bool) :
    List (List Entry) → δ → Bus.Run (Except Halt Unit) δ → Prop
  /-- No block is left. -/
  | finished (state : δ) : LoadRun device readback [] state ⟨.ok (), [], state⟩
  /-- A frame fails. -/
  | failed {block : List Entry} {blocks : List (List Entry)} {state : δ}
      {run : Bus.Run (Except Halt Unit) δ} {halt : Halt}
      (hframe : FrameRun device readback block state run) (herror : run.value = .error halt) :
      LoadRun device readback (block :: blocks) state run
  /-- A frame goes well, and the load goes on with the others. -/
  | passed {block : List Entry} {blocks : List (List Entry)} {state : δ}
      {head tail : Bus.Run (Except Halt Unit) δ}
      (hframe : FrameRun device readback block state head) (hok : head.value = .ok ())
      (hrest : LoadRun device readback blocks head.device tail) :
      LoadRun device readback (block :: blocks) state
        ⟨tail.value, head.events ++ tail.events, tail.device⟩

/-- Blocks have no other runs. -/
theorem loadRun_play (device : Bus.Device δ) (readback : Bool) (blocks : List (List Entry))
    (state : δ) :
    LoadRun device readback blocks state ((Protocol.frames readback blocks).play device state) := by
  induction blocks generalizing state with
  | nil => exact .finished state
  | cons block blocks ih =>
    have hframe := frameRun_play device readback block state
    cases hvalue : ((Protocol.frame readback block).play device state).value with
    | error halt =>
      have hplay : (Protocol.frames readback (block :: blocks)).play device state =
          (Protocol.frame readback block).play device state := by
        refine (Protocol.play_bind_of_error hvalue).trans ?_
        rw [← hvalue]
      rw [hplay]
      exact .failed hframe hvalue
    | ok value =>
      have hplay : (Protocol.frames readback (block :: blocks)).play device state = _ :=
        Protocol.play_bind_of_ok hvalue
      rw [hplay]
      exact .passed hframe hvalue (ih _)

section Load

variable {device : Bus.Device δ} {readback : Bool} {state : δ}

/-- After a load that went well comes what goes on with the number of blocks. -/
lemma play_load_bind_of_ok {entries : List Entry} {next : ℕ → Protocol α}
    (h : ((Protocol.frames readback (Image.blocks entries)).play device state).value = .ok ()) :
    (Protocol.load readback entries >>= next).play device state =
      let head := (Protocol.frames readback (Image.blocks entries)).play device state
      let tail := (next (Image.blocks entries).length).play device head.device
      ⟨tail.value, head.events ++ tail.events, tail.device⟩ := by
  rw [Protocol.load, bind_assoc]
  exact Protocol.play_bind_of_ok h

/-- Nothing comes after a load that failed. -/
lemma play_load_bind_of_error {entries : List Entry} {next : ℕ → Protocol α} {halt : Halt}
    (h : ((Protocol.frames readback (Image.blocks entries)).play device state).value =
      .error halt) :
    (Protocol.load readback entries >>= next).play device state =
      let head := (Protocol.frames readback (Image.blocks entries)).play device state
      ⟨.error halt, head.events, head.device⟩ := by
  rw [Protocol.load, bind_assoc]
  exact Protocol.play_bind_of_error h

/-- A load does what its frames do, and gives the number of blocks if they all went well. -/
lemma play_load (entries : List Entry) :
    (Protocol.load readback entries).play device state =
      let run := (Protocol.frames readback (Image.blocks entries)).play device state
      ⟨run.value.map fun _ => (Image.blocks entries).length, run.events, run.device⟩ := by
  rw [← bind_pure (Protocol.load readback entries)]
  cases hvalue : ((Protocol.frames readback (Image.blocks entries)).play device state).value with
  | error halt =>
    rw [play_load_bind_of_error hvalue]
    simp only [hvalue]
    rfl
  | ok value =>
    rw [play_load_bind_of_ok hvalue]
    simp only [hvalue, Protocol.play_pure, List.append_nil]
    rfl

end Load

end SignalCore.Loader
