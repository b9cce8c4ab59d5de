import SignalCore.Loader.Action
import SignalCore.Proofs.Bus.Script
import Mathlib.Tactic.Common

/-!
# Actions step by step

An action is worked out from the front: each lemma here takes one step off an action that goes on
with `next` and says what is left to do, and with which loader.  `script_write_bind` and
`script_exchange_bind` do so for the operations that work on a frame buffer, once it is known what
the buffer holds.
-/

namespace SignalCore.Loader

open Bus (Script)

/-! ## Frame buffers -/

namespace FrameBuffer

lemma take?_eq_some (buffer : FrameBuffer) {count : ℕ} (h : count ≤ Bus.frameLength) :
    buffer.take? count = some (buffer.bytes.take count) := by
  have hfit : 0 + count ≤ buffer.bytes.length := by
    rw [buffer.length_eq]
    omega
  rw [take?, slice?, if_pos hfit, List.drop_zero]

/-- The start of a buffer is what was written over it. -/
lemma take?_overlay (buffer : FrameBuffer) {bytes : List UInt8} {count : ℕ}
    (hcount : count ≤ bytes.length) (hfit : bytes.length ≤ Bus.frameLength) :
    (buffer.overlay bytes).take? count = some (bytes.take count) := by
  have hbytes : (buffer.overlay bytes).bytes = bytes ++ buffer.bytes.drop bytes.length :=
    congrArg (· ++ _) (List.take_of_length_le hfit)
  rw [take?_eq_some _ (by omega), hbytes, List.take_append_of_le_length hcount]

end FrameBuffer

namespace Action

variable {α β : Type} (loader : Loader)

/-! ## Steps that do nothing on the bus -/

lemma script_get_bind (next : Loader → Action α) :
    (get >>= next).script loader = (next loader).script loader := rfl

lemma script_inBounds_bind (value : α) (next : α → Action β) :
    (inBounds (some value) >>= next).script loader = (next value).script loader := rfl

lemma script_setSent_bind (bytes : List UInt8) (next : Unit → Action α) :
    (setSent bytes >>= next).script loader =
      (next ()).script { loader with sent := loader.sent.overlay bytes } := rfl

lemma script_setReceived_bind (bytes : List UInt8) (next : Unit → Action α) :
    (setReceived bytes >>= next).script loader =
      (next ()).script { loader with received := loader.received.overlay bytes } := rfl

/-- An action goes on from the loader that the one before it leaves, unless that one ended early. -/
lemma script_bind (action : Action α) (next : α → Action β) :
    (action >>= next).script loader =
      (action.script loader).bind fun final =>
        match final.1 with
        | .ok value => (next value).script final.2
        | .error halt => .done (.error halt, final.2) := by
  change Script.bind _ _ = _
  congr 1
  funext final
  rcases final with ⟨_ | _, _⟩ <;> rfl

/-! ## Notes and operations -/

lemma script_note_bind (severity : Bus.Severity) (text : String) (next : Unit → Action α) :
    (note severity text >>= next).script loader =
      .note ⟨severity, text⟩ ((next ()).script loader) := rfl

lemma script_perform_bind (operation : Bus.Operation) (report : Bus.Fault → Error)
    (next : operation.Reply → Action α) :
    (perform operation report >>= next).script loader =
      .perform operation fun
        | .ok reply => (next reply).script loader
        | .error fault => .done (.error (.error (report fault)), loader) := by
  change Script.perform _ _ = _
  congr 1
  funext reply
  cases reply <;> rfl

variable {loader}

lemma script_write_bind {count : ℕ} {request : List UInt8}
    (hrequest : loader.sent.take? count = some request) (next : Unit → Action α) :
    (write count >>= next).script loader =
      .perform (.write request) fun
        | .ok _ => (next ()).script loader
        | .error fault => .done (.error (.error (.bus fault)), loader) := by
  simp only [write, bind_assoc, script_get_bind, hrequest, script_inBounds_bind]
  refine (script_perform_bind _ _ _ _).trans ?_
  congr 1
  funext reply
  cases reply <;> rfl

/-- An answer takes the place of zeros, which are all that a failed exchange leaves. -/
lemma script_exchange_bind {count : ℕ} {request : List UInt8} (hcount : count ≤ Bus.frameLength)
    (hrequest : loader.sent.take? count = some request) (next : List UInt8 → Action α) :
    (exchange count >>= next).script loader =
      let cleared := loader.received.overlay (List.replicate count 0)
      .perform (.transfer request count) fun
        | .ok reply =>
          (next reply.val).script { loader with received := cleared.overlay reply.val }
        | .error fault =>
          .done (.error (.error (.bus fault)), { loader with received := cleared }) := by
  obtain ⟨received, hreceived⟩ : ∃ received, loader.received.take? count = some received :=
    ⟨_, FrameBuffer.take?_eq_some _ hcount⟩
  have hlength : received.length = count := by
    rw [FrameBuffer.take?_eq_some _ hcount, Option.some_inj] at hreceived
    rw [← hreceived, List.length_take, loader.received.length_eq]
    omega
  subst hlength
  simp only [exchange, bind_assoc, script_get_bind, hrequest, hreceived, script_inBounds_bind,
    script_setReceived_bind, List.map_const']
  refine (script_perform_bind _ _ _ _).trans ?_
  congr 1
  funext reply
  cases reply <;> rfl

end Action

end SignalCore.Loader
