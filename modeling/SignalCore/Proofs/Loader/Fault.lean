import SignalCore.Proofs.Bus.Fault
import SignalCore.Proofs.Loader.Call

/-!
# Stopping at the first fault

A fault on the bus or on a control line ends every operation of the loader there and then, with the
error of its kind that carries the fault.  It is shown of the protocols, from the single operation
up through frames, loads and boots, that a fault is the last thing that happens in them
(`Protocol.StopsAtFault`), and `call_stops_at_first_fault` compares the two runs of a call, with
faults and without.
-/

namespace SignalCore.Loader

open Image (Entry)

variable {α β δ : Type} {readback : Bool}

/-- The error that an operation ends with when it fails. -/
def faultError (operation : Bus.Operation) (fault : Bus.Fault) : Error :=
  if operation.onBus then .bus fault else .pin fault

/-! ## Protocols -/

namespace Protocol

/-- A fault is the last thing that happens in the protocol. -/
def StopsAtFault (protocol : Protocol α) : Prop :=
  protocol.script.StopsAtFault fun operation fault => .error (faultError operation fault)

namespace StopsAtFault

lemma pure (value : α) : StopsAtFault (pure value : Protocol α) :=
  Bus.Script.StopsAtFault.done _

lemma fail (error : Error) : StopsAtFault (Protocol.fail error : Protocol α) :=
  Bus.Script.StopsAtFault.done _

lemma note (severity : Bus.Severity) (text : String) :
    StopsAtFault (Protocol.note severity text) :=
  Bus.Script.StopsAtFault.note _ (Bus.Script.StopsAtFault.done _)

lemma perform {operation : Bus.Operation} {report : Bus.Fault → Error}
    (h : report = faultError operation) : StopsAtFault (Protocol.perform operation report) := by
  subst h
  exact Bus.Script.StopsAtFault.perform operation (fun _ => rfl) fun _ =>
    Bus.Script.StopsAtFault.done _

lemma drive (line : Bus.Line) (level : Bus.Level) : StopsAtFault (Protocol.drive line level) :=
  perform rfl

lemma bind {protocol : Protocol α} {next : α → Protocol β} (h : StopsAtFault protocol)
    (hnext : ∀ value, StopsAtFault (next value)) : StopsAtFault (protocol >>= next) := by
  unfold StopsAtFault
  rw [script_bind]
  exact Bus.Script.StopsAtFault.bind h (fun _ => rfl) hnext

lemma forM {items : List β} {act : β → Protocol Unit} (h : ∀ item, StopsAtFault (act item)) :
    StopsAtFault (items.forM act) := by
  induction items with
  | nil => exact .pure ()
  | cons item items ih => exact .bind (h item) fun _ => ih

end StopsAtFault

lemma stopsAtFault_compare (frame : List Entry) (answer : List UInt8) :
    StopsAtFault (compare frame answer) := by
  unfold compare
  cases firstDifference? 0 (payload frame) (receivedData frame answer) with
  | none => exact .pure ()
  | some difference => exact .bind (.note _ _) fun _ => .fail _

lemma stopsAtFault_frame (frame : List Entry) :
    StopsAtFault (Protocol.frame readback frame) := by
  refine .bind (.note _ _) fun _ => .bind (.perform rfl) fun _ => ?_
  cases readback with
  | false => exact .pure ()
  | true => exact .bind (.perform rfl) fun answer => stopsAtFault_compare frame answer.val

lemma stopsAtFault_frames (blocks : List (List Entry)) :
    StopsAtFault (frames readback blocks) :=
  .forM stopsAtFault_frame

lemma stopsAtFault_load (entries : List Entry) : StopsAtFault (load readback entries) :=
  .bind (stopsAtFault_frames _) fun _ => .pure _

lemma stopsAtFault_resetCore : StopsAtFault resetCore :=
  .bind (.drive _ _) fun _ => .bind (.drive _ _) fun _ => .bind (.drive _ _) fun _ => .note _ _

lemma stopsAtFault_startCore : StopsAtFault startCore :=
  .bind (.drive _ _) fun _ => .note _ _

lemma stopsAtFault_readRegister (index : UInt8) : StopsAtFault (readRegister index) := by
  unfold readRegister
  cases Bus.registerCommands[index.toNat]? with
  | none => exact .fail _
  | some command => exact .bind (.perform rfl) fun _ => .bind (.note _ _) fun _ => .pure _

lemma stopsAtFault_boot (image : String) (slots : List Entry) :
    StopsAtFault (boot readback image slots) := by
  unfold boot
  cases (Image.scan image slots).result with
  | error error => exact .fail _
  | ok count =>
    exact .bind stopsAtFault_resetCore fun _ => .bind (stopsAtFault_load _) fun _ =>
      .bind (.note _ _) fun _ => stopsAtFault_startCore

end Protocol

lemma stopsAtFault_call (call : Call) : Protocol.StopsAtFault (call.protocol readback) := by
  cases call with
  | resetCore => exact Protocol.stopsAtFault_resetCore
  | startCore => exact Protocol.stopsAtFault_startCore
  | readRegister index => exact Protocol.stopsAtFault_readRegister index
  | writeBlock entries => exact Protocol.stopsAtFault_frames _
  | load entries => exact Protocol.stopsAtFault_load entries
  | boot image slots => exact Protocol.stopsAtFault_boot image slots

/-! ## Calls -/

/-- **Every call stops at its first fault.**  Take a call on a device that fails nothing and the
same call with faults in any pattern.  Where the pattern lets no operation of the first run fail,
both runs end the same way with the same events.  Otherwise the second run has the events of the
first up to the first such operation and then this operation as failed; that is its last event, and
the call ends with the error of a bus or of a pin, whichever failed, with the fault that it
reported. -/
theorem call_stops_at_first_fault (call : Call) (loader : Loader) (reliable : Bus.Reliable δ)
    (fails : Bus.FaultPattern) (state : δ) (attempted : List Bus.Operation) :
    let faultless := call.action.play loader reliable.device state
    let faulty := call.action.play loader (reliable.withFaults fails) (state, attempted)
    match Bus.firstFault? fails attempted faultless.events with
    | none =>
      faulty.value = faultless.value ∧ faulty.events = faultless.events ∧
        faulty.device.1 = faultless.device
    | some (before, operation, fault) =>
      (∃ reply after, faultless.events = before ++ .answered operation reply :: after) ∧
        faulty.events = before ++ [.failed operation] ∧
        faulty.value =
          .error (.error (if operation.onBus then .bus fault else .pin fault)) := by
  intro faultless faulty
  have hstops : Protocol.StopsAtFault (call.protocol loader.readback) := stopsAtFault_call call
  have hcut := hstops.cutAtFault reliable fails state attempted
  have hfaultless : faultless = _ := (follows_call call).play_eq reliable.device state
  have hfaulty : faulty = _ :=
    (follows_call call).play_eq (reliable.withFaults fails) (state, attempted)
  rw [hfaultless, hfaulty]
  exact hcut

end SignalCore.Loader
