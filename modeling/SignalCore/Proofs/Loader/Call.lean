import SignalCore.Proofs.Image.Scan
import SignalCore.Proofs.Loader.Play

/-!
# Calls to a loader

A `Call` is an operation of the loader with its arguments.  Each follows a protocol
(`follows_call`), so what it does is settled by its arguments, by whether the loader reads back, and
by the answers of the device, and not by what earlier calls have left in the frame buffers.

The main statement is `frame_buffers_unobservable`.  It says so of single calls from any two
loaders, and of whole sessions: both buffers may be overwritten with any bytes before every call,
and nothing that can be seen changes.
-/

namespace SignalCore.Loader

open Image (Entry)

variable {δ : Type} {readback : Bool}

/-! ## The protocols of the other operations -/

/-- The bytes that are sent to read a register. -/
def registerRequest (command : UInt8) : List UInt8 :=
  command :: List.replicate (Bus.registerLength - 1) 0

namespace Protocol

/-- Read a register, if there is one of this number. -/
def readRegister (index : UInt8) : Protocol UInt8 :=
  match Bus.registerCommands[index.toNat]? with
  | none => fail (.noRegister index)
  | some command => do
    let answer ← perform (.transfer (registerRequest command) Bus.registerLength) .bus
    let value := answer.val.getD Bus.registerOffset 0
    note .debug ("register " ++ toString index ++ " = " ++ Text.Hex.byteText value)
    return value

/-- Boot with the entries of an image, if it can be read. -/
def boot (readback : Bool) (image : String) (slots : List Entry) : Protocol Unit :=
  match (Image.scan image slots).result with
  | .error error => fail (.image error)
  | .ok count => bootEntries readback count ((Image.scan image slots).slots.take count)

end Protocol

open Loader.Action (Follows)

theorem follows_readRegister (index : UInt8) :
    Follows readback (readRegister index) (Protocol.readRegister index) := by
  intro loader hloader
  rw [readRegister, Protocol.readRegister]
  cases Bus.registerCommands[index.toNat]? with
  | none => exact .done ⟨rfl, hloader⟩
  | some command =>
    have hsent : (loader.sent.overlay (registerRequest command)).take? Bus.registerLength =
        some (registerRequest command) := by
      have hlength : (registerRequest command).length = Bus.registerLength := rfl
      rw [FrameBuffer.take?_overlay _ hlength.ge (by rw [hlength]; decide),
        List.take_of_length_le hlength.le]
    have hrequest : command :: List.replicate (Bus.registerLength - 1) 0 =
        registerRequest command := rfl
    simp only [hrequest, Action.script_setSent_bind]
    rw [Action.script_exchange_bind (by decide) hsent, Protocol.script_perform_bind]
    refine .perform _ fun reply => ?_
    cases reply with
    | error fault => exact .done ⟨rfl, hloader⟩
    | ok reply =>
      have hvalue :
          reply.val[Bus.registerOffset]? = some (reply.val.getD Bus.registerOffset 0) := by
        have hlength : Bus.registerOffset < reply.val.length := by
          rw [reply.property]
          decide
        rw [List.getD_eq_getElem?_getD, List.getElem?_eq_getElem hlength]
        rfl
      simp only [hvalue, Action.script_inBounds_bind]
      exact .note _ (.done ⟨rfl, hloader⟩)

theorem follows_writeBlock (entries : List Entry) :
    Follows readback (writeBlock entries) (Protocol.frames readback (Image.frames entries)) :=
  .forM fun _ hframe =>
    follows_writeFrame (Image.fits_of_mem_frames hframe).1 (Image.fits_of_mem_frames hframe).2

theorem follows_boot (image : String) (slots : List Entry) :
    Follows readback (boot image slots).2 (Protocol.boot readback image slots) := by
  intro loader hloader
  simp only [boot, Protocol.boot]
  cases hscan : (Image.scan image slots).result with
  | error error => exact .done ⟨rfl, hloader⟩
  | ok count => exact follows_bootEntries (Image.count_le_length_of_scan hscan) loader hloader

/-! ## Calls -/

/-- An operation of the loader with its arguments. -/
inductive Call where
  | resetCore
  | startCore
  | readRegister (index : UInt8)
  | writeBlock (entries : List Entry)
  | load (entries : List Entry)
  /-- The slots that a boot leaves depend on its arguments alone, so only its action is a matter of
  the loader. -/
  | boot (image : String) (slots : List Entry)

namespace Call

/-- What a call gives if it ends well. -/
abbrev Result : Call → Type
  | resetCore => Unit
  | startCore => Unit
  | readRegister _ => UInt8
  | writeBlock _ => Unit
  | load _ => ℕ
  | boot _ _ => Unit

/-- The action of a call. -/
def action : (call : Call) → Action call.Result
  | resetCore => Loader.resetCore
  | startCore => Loader.startCore
  | readRegister index => Loader.readRegister index
  | writeBlock entries => Loader.writeBlock entries
  | load entries => Loader.load entries
  | boot image slots => (Loader.boot image slots).2

/-- The protocol of a call. -/
def protocol (readback : Bool) : (call : Call) → Protocol call.Result
  | resetCore => Protocol.resetCore
  | startCore => Protocol.startCore
  | readRegister index => Protocol.readRegister index
  | writeBlock entries => Protocol.frames readback (Image.frames entries)
  | load entries => Protocol.load readback entries
  | boot image slots => Protocol.boot readback image slots

end Call

theorem follows_call (call : Call) : Follows readback call.action (call.protocol readback) := by
  cases call with
  | resetCore => exact follows_resetCore
  | startCore => exact follows_startCore
  | readRegister index => exact follows_readRegister index
  | writeBlock entries => exact follows_writeBlock entries
  | load entries => exact follows_load entries
  | boot image slots => exact follows_boot image slots

/-! ## Sessions -/

/-- The loader that an action leaves. -/
def Action.after {α : Type} (action : Action α) (loader : Loader) (device : Bus.Device δ)
    (state : δ) : Loader :=
  ((action.script loader).run device state).value.2

/-- What is asked of a loader in a session. -/
inductive Request where
  | call (call : Call)
  | withReadback (readback : Bool)

/-- What became of a call: how it ended, what happened, and the state that the device is left in. -/
structure Report (δ : Type) where
  call : Call
  run : Bus.Run (Except Halt call.Result) δ

/-- The reports of requests made to one loader in order.  Before every call, `tamper` has its way
with the loader. -/
def reports (tamper : Loader → Loader) (device : Bus.Device δ) :
    List Request → Loader → δ → List (Report δ)
  | [], _, _ => []
  | .withReadback readback :: rest, loader, state =>
    reports tamper device rest (loader.withReadback readback) state
  | .call call :: rest, loader, state =>
    let run := call.action.play (tamper loader) device state
    ⟨call, run⟩ :: reports tamper device rest (call.action.after (tamper loader) device state)
      run.device

lemma readback_after (call : Call) (loader : Loader) (device : Bus.Device δ) (state : δ) :
    (call.action.after loader device state).readback = loader.readback :=
  ((follows_call call loader rfl).run device state).1.2

lemma play_call_eq (call : Call) {loader loader' : Loader} (h : loader.readback = loader'.readback)
    (device : Bus.Device δ) (state : δ) :
    call.action.play loader device state = call.action.play loader' device state := by
  rw [(follows_call call).play_eq, (follows_call call).play_eq, h]

lemma reports_eq {tamper : Loader → Loader} (device : Bus.Device δ)
    (htamper : ∀ loader, (tamper loader).readback = loader.readback) (requests : List Request)
    {loader loader' : Loader} (h : loader.readback = loader'.readback) (state : δ) :
    reports tamper device requests loader state = reports id device requests loader' state := by
  induction requests generalizing loader loader' state with
  | nil => rfl
  | cons request requests ih =>
    cases request with
    | withReadback readback =>
      have hset : (loader.withReadback readback).readback =
          (loader'.withReadback readback).readback := rfl
      exact ih hset state
    | call call =>
      have hplay := play_call_eq call ((htamper loader).trans h) device state
      have hafter : (call.action.after (tamper loader) device state).readback =
          (call.action.after loader' device state).readback := by
        rw [readback_after, readback_after, htamper, h]
      rw [reports, reports, id_eq, hplay]
      exact congrArg _ (ih hafter _)

/-- **The frame buffers cannot be seen.**  Two loaders that both read back, or both do not, answer
every call alike on every device: in the same way and with the same events, and they leave the
device in the same state.  Over a session, buffers that are overwritten with any bytes before every
call make no difference to any report, so no byte of an earlier transfer is sent, read as the value
of a register or compared with what was written. -/
theorem frame_buffers_unobservable (device : Bus.Device δ) :
    (∀ (call : Call) (loader loader' : Loader) (state : δ), loader.readback = loader'.readback →
      call.action.play loader device state = call.action.play loader' device state) ∧
    ∀ tamper : Loader → Loader, (∀ loader, (tamper loader).readback = loader.readback) →
      ∀ (requests : List Request) (loader loader' : Loader) (state : δ),
        loader.readback = loader'.readback →
        reports tamper device requests loader state =
          reports id device requests loader' state := by
  constructor
  · intro call loader loader' state h
    exact play_call_eq call h device state
  · intro tamper htamper requests loader loader' state h
    exact reports_eq device htamper requests h state

/-- Before every call both buffers are filled with ones, and the second of two frames is not
written; a register read and a shorter frame come after it. -/
theorem frame_buffers_unobservable_of_ones :
    let ones : FrameBuffer := ⟨List.replicate Bus.frameLength 0xFF, List.length_replicate⟩
    let state : Bus.Simulated.State := { settings := { busFaults := [2] } }
    let requests : List Request :=
      [.call (.load [⟨0x10, 0x01020304⟩, ⟨0x14, 0x05060708⟩, ⟨0x20, 0x090A0B0C⟩]),
        .call (.readRegister 1), .withReadback false, .call (.writeBlock [⟨0x20, 0x0D0E0F10⟩])]
    (Call.readRegister 1).action.play ⟨true, ones, ones⟩ Bus.simulated state =
        (Call.readRegister 1).action.play .new Bus.simulated state ∧
      reports (fun loader => ⟨loader.readback, ones, ones⟩) Bus.simulated requests .new state =
        reports id Bus.simulated requests .new state := by
  intro ones state requests
  obtain ⟨hcall, hsession⟩ := frame_buffers_unobservable Bus.simulated
  exact ⟨hcall (.readRegister 1) ⟨true, ones, ones⟩ .new state rfl,
    hsession (fun loader => ⟨loader.readback, ones, ones⟩) (fun _ => rfl) requests .new .new state
      rfl⟩

end SignalCore.Loader
