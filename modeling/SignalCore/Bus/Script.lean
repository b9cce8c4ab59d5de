/-!
# Scripts of bus and pin operations

What a host does to the core goes over two routes: a serial bus, on which it writes bytes or
exchanges them, and two control lines.  A `Script` is a program of such operations, written
before any device is chosen: an operation is followed by what to do with its answer, or with the
fault that is reported instead.  A script can also make a note for a reader of the log.

`Script.run` plays a script against a device and records what happened, in order.  Scripts form a
lawful monad, and `Script.run_bind` says that a script followed by another is played as the one and
then the other.
-/

namespace SignalCore.Bus

/-! ## Operations -/

/-- A control line of the core. -/
inductive Line where
  /-- Holds the core in reset while it is low. -/
  | reset
  /-- Lets the core fetch instructions while it is high. -/
  | fetch
deriving DecidableEq, Repr

/-- The level of a control line. -/
inductive Level where
  | low
  | high
deriving DecidableEq, Repr

/-- Something that the host does and the device answers. -/
inductive Operation where
  /-- Send bytes and receive none. -/
  | write (sent : List UInt8)
  /-- Send bytes and receive a number of bytes at the same time. -/
  | transfer (sent : List UInt8) (received : Nat)
  /-- Drive a control line. -/
  | drive (line : Line) (level : Level)
deriving DecidableEq, Repr

/-- Bytes received, as many as were asked for. -/
abbrev Received (count : Nat) : Type := { bytes : List UInt8 // bytes.length = count }

/-- What a device answers to an operation that does not fail. -/
abbrev Operation.Reply : Operation → Type
  | .write _ => Unit
  | .transfer _ received => Received received
  | .drive _ _ => Unit

/-- What the bus or a pin reports of an operation that failed, in its own words. -/
structure Fault where
  text : String
deriving DecidableEq, Repr

/-! ## Notes -/

/-- How much a note matters. -/
inductive Severity where
  | debug
  | info
  | warn
deriving DecidableEq, Repr

/-- A remark for a reader of the log. -/
structure Note where
  severity : Severity
  text : String
deriving DecidableEq, Repr

/-! ## Scripts -/

/-- A program of operations and notes that ends with a value.  An operation that fails has a fault
in place of its answer. -/
inductive Script (α : Type) where
  | done (value : α)
  | note (note : Note) (rest : Script α)
  | perform (operation : Operation) (resume : Except Fault operation.Reply → Script α)

namespace Script

variable {α β : Type}

/-- Follow a script by another that depends on its value. -/
def bind : Script α → (α → Script β) → Script β
  | done value, next => next value
  | note remark rest, next => note remark (rest.bind next)
  | perform operation resume, next => perform operation fun reply => (resume reply).bind next

instance : Monad Script where
  pure := done
  bind := bind

theorem bind_done (script : Script α) : script.bind done = script := by
  induction script with
  | done value => rfl
  | note remark rest ih => simp only [bind, ih]
  | perform operation resume ih => simp only [bind, ih]

theorem bind_assoc {γ : Type} (script : Script α) (next : α → Script β) (last : β → Script γ) :
    (script.bind next).bind last = script.bind fun value => (next value).bind last := by
  induction script with
  | done value => rfl
  | note remark rest ih => simp only [bind, ih]
  | perform operation resume ih => simp only [bind, ih]

instance : LawfulMonad Script :=
  LawfulMonad.mk' Script bind_done (fun _ _ => rfl) bind_assoc

end Script

/-! ## Devices and runs -/

/-- How the other end answers, given a state, and the state that it is left in. -/
structure Device (δ : Type) where
  respond : (operation : Operation) → δ → Except Fault operation.Reply × δ

/-- One thing that happened. -/
inductive Event where
  | noted (note : Note)
  | answered (operation : Operation) (reply : operation.Reply)
  | failed (operation : Operation)

/-- How a script ended: its value, what happened in order, and the state of the device. -/
structure Run (α δ : Type) where
  value : α
  events : List Event
  device : δ

namespace Script

variable {α δ : Type}

/-- The event of an operation. -/
def eventOf (operation : Operation) : Except Fault operation.Reply → Event
  | .ok reply => .answered operation reply
  | .error _ => .failed operation

/-- Play a script against a device. -/
def run (device : Device δ) : Script α → δ → Run α δ
  | done value, state => ⟨value, [], state⟩
  | note remark rest, state =>
    let tail := rest.run device state
    { tail with events := .noted remark :: tail.events }
  | perform operation resume, state =>
    let (reply, state) := device.respond operation state
    let tail := (resume reply).run device state
    { tail with events := eventOf operation reply :: tail.events }

/-- A script followed by another plays first the one and then the other, from the state that the
first leaves. -/
theorem run_bind {β : Type} (device : Device δ) (script : Script α) (next : α → Script β)
    (state : δ) :
    (script.bind next).run device state =
      let first := script.run device state
      let second := (next first.value).run device first.device
      { second with events := first.events ++ second.events } := by
  induction script generalizing state with
  | done value => rfl
  | note remark rest ih => simp only [bind, run, ih, List.cons_append]
  | perform operation resume ih => simp only [bind, run, ih, List.cons_append]

end Script

end SignalCore.Bus
