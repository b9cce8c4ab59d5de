import SignalCore.Proofs.Bus.Conduct
import SignalCore.Proofs.Image.Scan
import SignalCore.Proofs.Loader.Wire

/-!
# Inside the frame buffers

Everything that a loader sends or receives passes through two buffers of one length.  The actions
follow protocols in which nothing can be out of bounds (`Protocol.InBounds`), and these send only
what fits into a buffer (`FitsBuffers`).  A frame is the step (`inBounds_frame`): the request that
reads a full block back takes the buffer to its last byte.

Two cuts depend on data: the slots that a boot loads, and the words of an answer that are compared
with those of a frame.  Neither goes past its end, so an action that follows its protocol never
stops at one (`Image.count_le_length_of_scan`, `firstDifferentWord?_realign`).
-/

namespace SignalCore.Loader

open Image (Entry)

variable {α β δ : Type} {readback : Bool}

/-! ## Operations that fit -/

/-- A write has room for the words of a full block behind its header, and a transfer receives as
much as it sends, which has room in a buffer. -/
def FitsBuffers : Bus.Operation → Prop
  | .write sent => sent.length ≤ Bus.headerLength + Bus.maxPayloadLength
  | .transfer sent received => sent.length = received ∧ received ≤ Bus.frameLength
  | .drive _ _ => True

lemma fitsBuffers_writeOperation {frame : List Entry} (h : frame.length ≤ Bus.maxBlockWords) :
    FitsBuffers (writeOperation frame) := by
  have hpayload := length_payload_le h
  rw [FitsBuffers, length_writeRequest]
  omega

lemma fitsBuffers_readOperation {frame : List Entry} (h : frame.length ≤ Bus.maxBlockWords) :
    FitsBuffers (readOperation frame) := by
  have hpayload := length_payload_le h
  refine ⟨length_readRequest frame, ?_⟩
  rw [answerLength, Bus.frameLength]
  omega

lemma fitsBuffers_registerRequest (command : UInt8) :
    FitsBuffers (.transfer (registerRequest command) Bus.registerLength) :=
  ⟨rfl, by decide⟩

/-! ## Protocols -/

namespace Protocol

/-- Whatever the answers, the protocol performs operations that fit into the buffers alone, and it
ends well or with an error. -/
def InBounds (protocol : Protocol α) : Prop :=
  protocol.script.KeepsTo FitsBuffers (· ≠ .error .outOfBounds)

namespace InBounds

lemma pure (value : α) : InBounds (pure value : Protocol α) :=
  Bus.Script.KeepsTo.done nofun

lemma fail (error : Error) : InBounds (Protocol.fail error : Protocol α) :=
  Bus.Script.KeepsTo.done nofun

lemma note (severity : Bus.Severity) (text : String) : InBounds (Protocol.note severity text) :=
  Bus.Script.KeepsTo.note _ (Bus.Script.KeepsTo.done nofun)

lemma perform {operation : Bus.Operation} (h : FitsBuffers operation)
    (report : Bus.Fault → Error) : InBounds (Protocol.perform operation report) := by
  refine Bus.Script.KeepsTo.perform h fun reply => ?_
  cases reply with
  | error fault => exact fail (report fault)
  | ok reply => exact pure reply

lemma drive (line : Bus.Line) (level : Bus.Level) : InBounds (Protocol.drive line level) := by
  have hfits : FitsBuffers (.drive line level) := trivial
  exact perform hfits _

lemma bind {protocol : Protocol α} {next : α → Protocol β} (h : InBounds protocol)
    (hnext : ∀ value, InBounds (next value)) : InBounds (protocol >>= next) := by
  unfold InBounds
  rw [script_bind]
  refine Bus.Script.KeepsTo.bind h fun final hfinal => ?_
  cases final with
  | ok value => exact hnext value
  | error halt => exact .done fun hhalt => hfinal (congrArg Except.error (Except.error.inj hhalt))

lemma forM {items : List β} {act : β → Protocol Unit} (h : ∀ item ∈ items, InBounds (act item)) :
    InBounds (items.forM act) := by
  induction items with
  | nil => exact .pure ()
  | cons item items ih =>
    obtain ⟨hitem, hitems⟩ := List.forall_mem_cons.1 h
    exact .bind hitem fun _ => ih hitems

end InBounds

lemma inBounds_compare (frame : List Entry) (answer : List UInt8) :
    InBounds (compare frame answer) := by
  unfold compare
  cases firstDifference? 0 (payload frame) (receivedData frame answer) with
  | none => exact .pure ()
  | some difference => exact .bind (.note _ _) fun _ => .fail _

lemma inBounds_frame {frame : List Entry} (h : frame.length ≤ Bus.maxBlockWords) :
    InBounds (Protocol.frame readback frame) := by
  refine .bind (.note _ _) fun _ => .bind (.perform (fitsBuffers_writeOperation h) _) fun _ => ?_
  cases readback with
  | false => exact .pure ()
  | true =>
    exact .bind (.perform (fitsBuffers_readOperation h) _) fun answer =>
      inBounds_compare frame answer.val

lemma inBounds_load (entries : List Entry) : InBounds (load readback entries) :=
  .bind (.forM fun _ hblock => inBounds_frame (Image.isBlock_of_mem_blocks hblock).length_le)
    fun _ => .pure _

lemma inBounds_resetCore : InBounds resetCore :=
  .bind (.drive _ _) fun _ => .bind (.drive _ _) fun _ => .bind (.drive _ _) fun _ => .note _ _

lemma inBounds_startCore : InBounds startCore :=
  .bind (.drive _ _) fun _ => .note _ _

lemma inBounds_readRegister (index : UInt8) : InBounds (readRegister index) := by
  unfold readRegister
  cases Bus.registerCommands[index.toNat]? with
  | none => exact .fail _
  | some command =>
    exact .bind (.perform (fitsBuffers_registerRequest command) _) fun _ =>
      .bind (.note _ _) fun _ => .pure _

lemma inBounds_boot (image : String) (slots : List Entry) :
    InBounds (boot readback image slots) := by
  unfold boot
  cases (Image.scan image slots).result with
  | error error => exact .fail _
  | ok count =>
    exact .bind inBounds_resetCore fun _ => .bind (inBounds_load _) fun _ =>
      .bind (.note _ _) fun _ => inBounds_startCore

end Protocol

lemma inBounds_call (call : Call) : Protocol.InBounds (call.protocol readback) := by
  cases call with
  | resetCore => exact Protocol.inBounds_resetCore
  | startCore => exact Protocol.inBounds_startCore
  | readRegister index => exact Protocol.inBounds_readRegister index
  | writeBlock entries =>
    exact .forM fun _ hframe => Protocol.inBounds_frame (Image.fits_of_mem_frames hframe).2
  | load entries => exact Protocol.inBounds_load entries
  | boot image slots => exact Protocol.inBounds_boot image slots

/-! ## Calls -/

lemma play_call_inBounds (call : Call) (loader : Loader) (device : Bus.Device δ) (state : δ) :
    let run := call.action.play loader device state
    run.value ≠ .error .outOfBounds ∧
      ∀ operation ∈ Bus.operations run.events, FitsBuffers operation := by
  intro run
  have hplay : run = (call.protocol loader.readback).play device state :=
    (follows_call call).play_eq device state
  rw [hplay]
  exact (inBounds_call call).run device state

/-- **No call leaves the frame buffers.**  Whatever the buffers hold and whatever the device
answers, a call ends well or with an error: it never asks for bytes outside a buffer.  It writes
1029 bytes at most, and a transfer receives as many bytes as it sends, at most as many as a buffer
holds.

Two of its cuts depend on data, and neither goes too far: a boot loads no more entries than there
are slots, and each word of a frame that was read back is inside the answer, so that the comparison
word by word comes to an end, with the verdict of a comparison of all data at once. -/
theorem call_stays_in_bounds (loader : Loader) (device : Bus.Device δ) (state : δ) :
    (∀ call : Call,
      let run := call.action.play loader device state
      ((∃ result, run.value = .ok result) ∨ ∃ error, run.value = .error (.error error)) ∧
        (∀ sent, .write sent ∈ Bus.operations run.events → sent.length ≤ 1029) ∧
        ∀ sent received, .transfer sent received ∈ Bus.operations run.events →
          sent.length = received ∧ received ≤ Bus.frameLength) ∧
      (∀ image slots count, (Image.scan image slots).result = .ok count →
        count ≤ (Image.scan image slots).slots.length) ∧
      ∀ frame answer, answer.length = answerLength frame →
        firstDifferentWord? (Bus.realign answer) 0 frame =
          some (firstDifference? 0 (payload frame) (receivedData frame answer)) := by
  refine ⟨?_, fun _ _ _ => Image.count_le_length_of_scan, fun _ _ => firstDifferentWord?_realign⟩
  intro call run
  obtain ⟨hvalue, hoperations⟩ := play_call_inBounds call loader device state
  refine ⟨?_, fun sent hsent => hoperations _ hsent, fun sent received hsent => hoperations _ hsent⟩
  change run.value ≠ .error .outOfBounds at hvalue
  cases hrun : run.value with
  | ok result => exact .inl ⟨result, rfl⟩
  | error halt =>
    cases halt with
    | error error => exact .inr ⟨error, rfl⟩
    | outOfBounds => exact absurd hrun hvalue

/-- The write of a full block and the transfer that reads it back reach the bounds. -/
theorem call_stays_in_bounds_of_full_block :
    let entries : List Entry :=
      (List.range 256).map fun i => ⟨0xFFFFFF00 + 4 * UInt32.ofNat i, UInt32.ofNat i⟩
    let run := (writeBlock entries).play .new Bus.simulated {}
    ∃ written requested,
      Bus.operations run.events = [.write written, .transfer requested 1038] ∧
        written.length = 1029 ∧ written.length ≤ 1029 ∧
        requested.length = 1038 ∧ 1038 ≤ Bus.frameLength := by
  intro entries run
  have hentries : Image.Consecutive entries := by
    unfold Image.Consecutive
    decide +kernel
  have hcount : entries.length = 256 := by rw [List.length_map, List.length_range]
  have hwritten : (writeRequest entries).length = 1029 := by
    rw [length_writeRequest, length_payload, hcount]
    rfl
  have hanswer : answerLength entries = 1038 := by
    rw [answerLength, length_payload, hcount]
    rfl
  have hrun : LoadRun Bus.simulated true (Image.frames entries) {} run :=
    loadRun_writeBlock .new Bus.simulated {} entries
  have hok := (hrun.of_honest Bus.Simulated.honest_simulated
    (fun _ => Image.isBlock_of_mem_frames hentries) ⟨⟨rfl, rfl⟩, rfl, rfl, rfl⟩).1
  have hoperations : Bus.operations run.events =
      [.write (writeRequest entries), .transfer (readRequest entries) 1038] := by
    rw [hrun.operations_of_ok hok, ← hanswer,
      Image.frames_of_length_le (List.ne_nil_of_length_eq_add_one hcount) hcount.le]
    rfl
  have hbounds : (∀ sent, .write sent ∈ Bus.operations run.events → sent.length ≤ 1029) ∧
      ∀ sent received, .transfer sent received ∈ Bus.operations run.events →
        sent.length = received ∧ received ≤ Bus.frameLength :=
    ((call_stays_in_bounds .new Bus.simulated {}).1 (.writeBlock entries)).2
  rw [hoperations] at hbounds
  obtain ⟨hwrite, htransfer⟩ := hbounds
  obtain ⟨hrequested, hroom⟩ := htransfer (readRequest entries) 1038 (by simp)
  exact ⟨_, _, hoperations, hwritten, hwrite _ (by simp), hrequested, hroom⟩

end SignalCore.Loader
