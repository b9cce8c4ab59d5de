import SignalCore.Proofs.Bus.Event

/-!
# What a script keeps to

A script that is fixed before any device is chosen can be looked through for the operations that it
might perform.  `Script.KeepsTo` says that all of them are allowed, and that the script ends well,
whatever it is answered.  This passes through `bind` (`Script.KeepsTo.bind`), and it holds of every
run then (`Script.KeepsTo.run`).
-/

namespace SignalCore.Bus.Script

variable {α β δ : Type} {allowed : Operation → Prop} {final : α → Prop} {script : Script α}

/-- An operation is the first thing that is done, whether it is answered or fails. -/
lemma operations_perform (operation : Operation) (resume : Except Fault operation.Reply → Script α)
    (device : Device δ) (state : δ) :
    operations ((perform operation resume).run device state).events =
      let answer := device.respond operation state
      operation :: operations ((resume answer.1).run device answer.2).events := by
  have hevent : (eventOf operation (device.respond operation state).1).operation? =
      some operation := by
    cases (device.respond operation state).1 <;> rfl
  exact List.filterMap_cons_some hevent

/-- Under all answers the script performs allowed operations alone and ends in a value of which
`final` holds. -/
inductive KeepsTo (allowed : Operation → Prop) (final : α → Prop) : Script α → Prop
  | done {value : α} (h : final value) : KeepsTo allowed final (.done value)
  | note (remark : Note) {rest : Script α} (h : KeepsTo allowed final rest) :
      KeepsTo allowed final (.note remark rest)
  | perform {operation : Operation} {resume : Except Fault operation.Reply → Script α}
      (hallowed : allowed operation) (h : ∀ reply, KeepsTo allowed final (resume reply)) :
      KeepsTo allowed final (.perform operation resume)

namespace KeepsTo

/-- A script followed by scripts that keep to the same for all its final values. -/
theorem bind {final' : β → Prop} {next : α → Script β} (h : KeepsTo allowed final script)
    (hnext : ∀ value, final value → KeepsTo allowed final' (next value)) :
    KeepsTo allowed final' (script.bind next) := by
  induction h with
  | done hvalue => exact hnext _ hvalue
  | note remark _ ih => exact .note remark ih
  | perform hallowed _ ih => exact .perform hallowed ih

/-- Played against any device, the script performs allowed operations alone, those that fail
included, and ends in a value of which `final` holds. -/
theorem run (h : KeepsTo allowed final script) (device : Device δ) (state : δ) :
    final (script.run device state).value ∧
      ∀ operation ∈ operations (script.run device state).events, allowed operation := by
  induction h generalizing state with
  | done hvalue => exact ⟨hvalue, by simp [Script.run, operations]⟩
  | note remark _ ih => exact ih state
  | @perform operation resume hallowed _ ih =>
    obtain ⟨hvalue, hrest⟩ :=
      ih (device.respond operation state).1 (device.respond operation state).2
    refine ⟨hvalue, ?_⟩
    rw [operations_perform]
    exact List.forall_mem_cons.2 ⟨hallowed, hrest⟩

end KeepsTo

end SignalCore.Bus.Script
