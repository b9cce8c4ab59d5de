import SignalCore.Bus.Script
import Mathlib.Data.List.Basic

/-!
# Views of a trace

A trace is a list of events.  What a statement about it needs is mostly one of four things: what
was done (`operations`), the control lines that were driven (`drives`), the events on the bus
(`busEvents`), or the bytes of the writes among these (`writes`).  Each takes in operations that
failed as well as those that were answered, and each goes through a trace in order, part by part.
-/

namespace SignalCore.Bus

/-- The operation that an event is about, answered or failed. -/
def Event.operation? : Event → Option Operation
  | noted _ => none
  | answered operation _ => some operation
  | failed operation => some operation

/-- The operation uses the bus. -/
def Operation.onBus : Operation → Bool
  | write _ => true
  | transfer _ _ => true
  | drive _ _ => false

/-- The event is a bus operation, answered or failed. -/
def Event.onBus (event : Event) : Bool :=
  event.operation?.any Operation.onBus

/-- The control line that an event drives, or tries to. -/
def Event.drive? (event : Event) : Option (Line × Level) :=
  match event.operation? with
  | some (.drive line level) => some (line, level)
  | _ => none

/-- The bytes that an event writes, or tries to. -/
def Event.write? (event : Event) : Option (List UInt8) :=
  match event.operation? with
  | some (.write sent) => some sent
  | _ => none

/-- What was done, in order. -/
def operations (events : List Event) : List Operation :=
  events.filterMap Event.operation?

/-- The control lines that were driven, in order. -/
def drives (events : List Event) : List (Line × Level) :=
  events.filterMap Event.drive?

/-- What happened on the bus, in order. -/
def busEvents (events : List Event) : List Event :=
  events.filter Event.onBus

/-- The frames that were written, in order. -/
def writes (events : List Event) : List (List UInt8) :=
  events.filterMap Event.write?

@[simp]
lemma operations_append (first second : List Event) :
    operations (first ++ second) = operations first ++ operations second :=
  List.filterMap_append

@[simp]
lemma drives_append (first second : List Event) :
    drives (first ++ second) = drives first ++ drives second :=
  List.filterMap_append

@[simp]
lemma busEvents_append (first second : List Event) :
    busEvents (first ++ second) = busEvents first ++ busEvents second :=
  List.filter_append _ _

@[simp]
lemma writes_append (first second : List Event) :
    writes (first ++ second) = writes first ++ writes second :=
  List.filterMap_append

/-- A bus event is nowhere in a trace on which nothing happened on the bus. -/
lemma not_mem_of_busEvents_eq_nil {events : List Event} (h : busEvents events = []) {event : Event}
    (hbus : event.onBus) : event ∉ events :=
  fun hmem => List.filter_eq_nil_iff.1 h event hmem hbus

/-- A bus event of a trace that is quiet at both ends is in the middle, and so is what comes before
it and after the first end. -/
lemma exists_of_quiet_ends {first middle last before after : List Event} {event : Event}
    (hfirst : busEvents first = []) (hlast : busEvents last = []) (hbus : event.onBus)
    (h : first ++ (middle ++ last) = before ++ event :: after) :
    ∃ left right, before = first ++ left ∧ middle = left ++ event :: right := by
  have hnotFirst := not_mem_of_busEvents_eq_nil hfirst hbus
  have hnotLast := not_mem_of_busEvents_eq_nil hlast hbus
  obtain ⟨left, rfl, hrest⟩ : ∃ left, before = first ++ left ∧
      middle ++ last = left ++ event :: after := by
    rcases List.append_eq_append_iff.1 h with ⟨left, hbefore, hrest⟩ | ⟨left, hbefore, hrest⟩
    · exact ⟨left, hbefore, hrest⟩
    · cases left with
      | nil => exact ⟨[], by simpa using hbefore.symm, by simpa using hrest.symm⟩
      | cons head left =>
        obtain ⟨rfl, -⟩ := List.cons.inj hrest
        exact (hnotFirst (hbefore ▸ by simp)).elim
  rcases List.append_eq_append_iff.1 hrest with ⟨right, hleft, hlast'⟩ | ⟨right, hmiddle, hright⟩
  · exact (hnotLast (hlast' ▸ by simp)).elim
  · cases right with
    | nil =>
      have hlast' : event :: after = last := by simpa using hright
      exact (hnotLast (hlast' ▸ List.mem_cons_self)).elim
    | cons head right =>
      obtain ⟨rfl, -⟩ := List.cons.inj hright
      exact ⟨left, right, rfl, hmiddle⟩

lemma mem_drives {line : Line} {level : Level} {events : List Event} :
    (line, level) ∈ drives events ↔ ∃ event ∈ events, event.drive? = some (line, level) :=
  List.mem_filterMap

lemma drive_mem_drives {line : Line} {level : Level} {events : List Event}
    (h : .answered (.drive line level) () ∈ events) : (line, level) ∈ drives events :=
  mem_drives.2 ⟨_, h, rfl⟩

end SignalCore.Bus
