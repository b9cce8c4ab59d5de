import SignalCore.Proofs.Bus.Event

/-!
# Faults

A `Reliable` device fails no operation.  `Reliable.withFaults` is the same device with operations
made to fail at will, by a pattern that knows what was attempted before; an operation that fails has
no effect on the device.

Of the two runs of one script against such a pair it can be said how they compare, if a failing
operation is the last thing that the script does (`Script.StopsAtFault`).  The run with faults is
then the run without them, up to the first operation that the pattern lets fail
(`Script.StopsAtFault.cutAtFault`).
-/

namespace SignalCore.Bus

variable {α β δ ε : Type}

/-! ## Devices that are made to fail -/

/-- A device that fails no operation. -/
structure Reliable (δ : Type) where
  answer : (operation : Operation) → δ → operation.Reply × δ

/-- Tells with which fault an operation fails, if it fails, given the operations attempted before
it. -/
abbrev FaultPattern : Type := List Operation → Operation → Option Fault

namespace Reliable

/-- The device as it is. -/
def device (reliable : Reliable δ) : Device δ where
  respond operation state :=
    let answer := reliable.answer operation state
    (.ok answer.1, answer.2)

/-- The device with some operations made to fail.  Beside its own state it has the operations
attempted so far. -/
def withFaults (reliable : Reliable δ) (fails : FaultPattern) : Device (δ × List Operation) where
  respond operation state :=
    let attempted := state.2 ++ [operation]
    match fails state.2 operation with
    | some fault => (.error fault, (state.1, attempted))
    | none =>
      let answer := reliable.answer operation state.1
      (.ok answer.1, (answer.2, attempted))

end Reliable

/-- The first operation of a trace that a pattern lets fail, with the events before it and with its
fault.  The trace starts after the operations in `attempted`. -/
def firstFault? (fails : FaultPattern) :
    List Operation → List Event → Option (List Event × Operation × Fault)
  | _, [] => none
  | attempted, event :: rest =>
    match event.operation? with
    | none => (firstFault? fails attempted rest).map fun first => (event :: first.1, first.2)
    | some operation =>
      match fails attempted operation with
      | some fault => some ([], operation, fault)
      | none =>
        (firstFault? fails (attempted ++ [operation]) rest).map fun first =>
          (event :: first.1, first.2)

/-- The faulty run is the faultless one, up to the first operation that the pattern lets fail.  This
one is recorded as failed, nothing comes after it, and the run ends with the error that is made of
its fault.  Where there is no such operation, both runs are the same. -/
def CutAtFault (report : Operation → Fault → ε) (fails : FaultPattern)
    (attempted : List Operation) (faultless : Run (Except ε α) δ)
    (faulty : Run (Except ε α) (δ × List Operation)) : Prop :=
  match firstFault? fails attempted faultless.events with
  | none =>
    faulty.value = faultless.value ∧ faulty.events = faultless.events ∧
      faulty.device.1 = faultless.device
  | some (before, operation, fault) =>
    (∃ reply after, faultless.events = before ++ .answered operation reply :: after) ∧
      faulty.events = before ++ [.failed operation] ∧
      faulty.value = .error (report operation fault)

/-- An event that is no fault may stand before both runs. -/
lemma CutAtFault.cons {report : Operation → Fault → ε} {fails : FaultPattern}
    {attempted attempted' : List Operation} {faultless : Run (Except ε α) δ}
    {faulty : Run (Except ε α) (δ × List Operation)}
    (h : CutAtFault report fails attempted' faultless faulty) {event : Event}
    (hevent : firstFault? fails attempted (event :: faultless.events) =
      (firstFault? fails attempted' faultless.events).map fun first =>
        (event :: first.1, first.2)) :
    CutAtFault report fails attempted
      { faultless with events := event :: faultless.events }
      { faulty with events := event :: faulty.events } := by
  unfold CutAtFault at h ⊢
  rw [hevent]
  cases hfirst : firstFault? fails attempted' faultless.events with
  | none =>
    rw [hfirst] at h
    obtain ⟨hvalue, hevents, hdevice⟩ := h
    exact ⟨hvalue, congrArg _ hevents, hdevice⟩
  | some first =>
    rw [hfirst] at h
    obtain ⟨⟨reply, after, hsplit⟩, hevents, hvalue⟩ := h
    exact ⟨⟨reply, after, congrArg _ hsplit⟩, congrArg _ hevents, hvalue⟩

/-! ## Scripts that stop at a fault -/

namespace Script

/-- An operation that fails is the last thing that the script does, and it ends the script with the
error that `report` makes of its fault. -/
inductive StopsAtFault (report : Operation → Fault → ε) : Script (Except ε α) → Prop
  | done (value : Except ε α) : StopsAtFault report (.done value)
  | note (remark : Note) {rest : Script (Except ε α)} (h : StopsAtFault report rest) :
      StopsAtFault report (.note remark rest)
  | perform (operation : Operation) {resume : Except Fault operation.Reply → Script (Except ε α)}
      (hfault : ∀ fault, resume (.error fault) = .done (.error (report operation fault)))
      (hreply : ∀ reply, StopsAtFault report (resume (.ok reply))) :
      StopsAtFault report (.perform operation resume)

namespace StopsAtFault

variable {report : Operation → Fault → ε} {script : Script (Except ε α)}

/-- A script goes on stopping at faults if what comes after it passes on its error. -/
theorem bind {next : Except ε α → Script (Except ε β)} (h : StopsAtFault report script)
    (herror : ∀ error, next (.error error) = .done (.error error))
    (hok : ∀ value, StopsAtFault report (next (.ok value))) :
    StopsAtFault report (script.bind next) := by
  induction h with
  | done value =>
    cases value with
    | error error =>
      rw [Script.bind, herror]
      exact .done _
    | ok value => exact hok value
  | note remark _ ih => exact .note remark ih
  | perform operation hfault _ ih =>
    refine .perform operation (fun fault => ?_) ih
    rw [hfault, Script.bind, herror]

/-- **Faults cut a run.**  A script that stops at faults runs on a device with faults as it runs on
the device without, up to the first fault. -/
theorem cutAtFault (h : StopsAtFault report script) (reliable : Reliable δ) (fails : FaultPattern)
    (state : δ) (attempted : List Operation) :
    CutAtFault report fails attempted (script.run reliable.device state)
      (script.run (reliable.withFaults fails) (state, attempted)) := by
  induction h generalizing state attempted with
  | done value => exact ⟨rfl, rfl, rfl⟩
  | note remark _ ih => exact (ih state attempted).cons rfl
  | @perform operation resume hfault _ ih =>
    let answer := reliable.answer operation state
    have hfaultless : (Script.perform operation resume).run reliable.device state =
        let tail := (resume (.ok answer.1)).run reliable.device answer.2
        { tail with events := .answered operation answer.1 :: tail.events } := rfl
    rw [hfaultless]
    cases hfails : fails attempted operation with
    | some fault =>
      have hfaulty : (Script.perform operation resume).run (reliable.withFaults fails)
          (state, attempted) =
            ⟨.error (report operation fault), [.failed operation],
              (state, attempted ++ [operation])⟩ := by
        simp only [Script.run, Reliable.withFaults, hfails, hfault]
        rfl
      have hfirst : ∀ rest, firstFault? fails attempted (.answered operation answer.1 :: rest) =
          some ([], operation, fault) := by
        intro rest
        simp only [firstFault?, Event.operation?, hfails]
      dsimp only
      rw [hfaulty, CutAtFault, hfirst]
      exact ⟨⟨_, _, rfl⟩, rfl, rfl⟩
    | none =>
      have hfaulty : (Script.perform operation resume).run (reliable.withFaults fails)
          (state, attempted) =
            let tail := (resume (.ok answer.1)).run (reliable.withFaults fails)
              (answer.2, attempted ++ [operation])
            { tail with events := .answered operation answer.1 :: tail.events } := by
        simp only [Script.run, Reliable.withFaults, hfails]
        rfl
      rw [hfaulty]
      refine (ih answer.1 answer.2 (attempted ++ [operation])).cons ?_
      simp only [firstFault?, Event.operation?, hfails]

end StopsAtFault

end Script

end SignalCore.Bus
