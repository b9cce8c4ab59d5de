import SignalCore.Bus.Script

/-!
# Scripts that do the same

Two scripts agree if they make the same notes and perform the same operations, whatever the
answers to these are, and end in related values.  Agreement passes through `bind` (`Agree.bind`),
and no device tells agreeing scripts apart (`Agree.run`).

The notion serves to leave state out of a script: a script that ends with a value and a state
agrees with one that ends with the value alone, if the state has no influence on what is done.
-/

namespace SignalCore.Bus.Script

variable {α β γ ε δ : Type}

/-- The scripts make the same notes and perform the same operations under all answers, and end in
values that `R` relates. -/
inductive Agree (R : α → β → Prop) : Script α → Script β → Prop
  | done {a : α} {b : β} (h : R a b) : Agree R (.done a) (.done b)
  | note (remark : Note) {s : Script α} {t : Script β} (h : Agree R s t) :
      Agree R (.note remark s) (.note remark t)
  | perform (operation : Operation) {s : Except Fault operation.Reply → Script α}
      {t : Except Fault operation.Reply → Script β} (h : ∀ reply, Agree R (s reply) (t reply)) :
      Agree R (.perform operation s) (.perform operation t)

namespace Agree

/-- Agreeing scripts followed by scripts that agree for all related values. -/
theorem bind {R : α → β → Prop} {R' : γ → ε → Prop} {s : Script α} {t : Script β}
    {next : α → Script γ} {next' : β → Script ε} (h : Agree R s t)
    (hnext : ∀ a b, R a b → Agree R' (next a) (next' b)) :
    Agree R' (s.bind next) (t.bind next') := by
  induction h with
  | done hab => exact hnext _ _ hab
  | note remark _ ih => exact .note remark ih
  | perform operation _ ih => exact .perform operation ih

/-- Played against the same device, agreeing scripts have the same events, leave the device in the
same state and end in related values. -/
theorem run {R : α → β → Prop} {s : Script α} {t : Script β} (h : Agree R s t)
    (device : Device δ) (state : δ) :
    R (s.run device state).value (t.run device state).value ∧
      (s.run device state).events = (t.run device state).events ∧
      (s.run device state).device = (t.run device state).device := by
  induction h generalizing state with
  | done hab => exact ⟨hab, rfl, rfl⟩
  | note remark _ ih =>
    obtain ⟨hvalue, hevents, hdevice⟩ := ih state
    exact ⟨hvalue, congrArg _ hevents, hdevice⟩
  | perform operation _ ih =>
    obtain ⟨hvalue, hevents, hdevice⟩ :=
      ih (device.respond operation state).1 (device.respond operation state).2
    exact ⟨hvalue, congrArg _ hevents, hdevice⟩

end Agree

end SignalCore.Bus.Script
