import SignalCore.Proofs.Bus.Event
import SignalCore.Proofs.Loader.Play

/-!
# Delivered blocks

What the bus shows of a load that went well is fixed but for the bytes that come back: for each
block one write that was answered, and with readback one read whose answer holds the data that were
written (`AllDelivered`).  `LoadRun.ok_iff` says that a load ends well exactly if that is what
the bus shows, so a load that stopped early, or went on past a frame that was not in place, would
show in the trace.
-/

namespace SignalCore.Loader

open Bus (busEvents drives writes)
open Image (Entry)

variable {δ : Type} {device : Bus.Device δ} {readback : Bool}

/-- The bus events of a block that was written without a fault and, with readback, was read back
as it was written. -/
inductive Delivered : Bool → List Entry → List Bus.Event → Prop
  | unread (block : List Entry) : Delivered false block [.answered (writeOperation block) ()]
  | matched {block : List Entry} {answer : Bus.Received (answerLength block)}
      (hdata : receivedData block answer.val = payload block) :
      Delivered true block
        [.answered (writeOperation block) (), .answered (readOperation block) answer]

/-- The bus events of blocks that were delivered one after the other. -/
inductive AllDelivered (readback : Bool) : List (List Entry) → List Bus.Event → Prop
  | nil : AllDelivered readback [] []
  | cons {block : List Entry} {blocks : List (List Entry)} {now later : List Bus.Event}
      (hnow : Delivered readback block now) (hlater : AllDelivered readback blocks later) :
      AllDelivered readback (block :: blocks) (now ++ later)

lemma Delivered.length_eq {block : List Entry} {events : List Bus.Event}
    (h : Delivered readback block events) : events.length = if readback then 2 else 1 := by
  cases h <;> rfl

/-- Behind the delivery of the first block is that of the others. -/
lemma AllDelivered.later {block : List Entry} {blocks : List (List Entry)}
    {now later : List Bus.Event} (hnow : Delivered readback block now)
    (h : AllDelivered readback (block :: blocks) (now ++ later)) :
    AllDelivered readback blocks later := by
  generalize hevents : now ++ later = events at h
  cases h with
  | cons hnow' hlater' =>
    obtain ⟨-, rfl⟩ := List.append_inj hevents (hnow.length_eq.trans hnow'.length_eq.symm)
    exact hlater'

/-! ## One frame -/

namespace FrameRun

variable {block : List Entry} {state : δ} {run : Bus.Run (Except Halt Unit) δ}

lemma drives_eq_nil (h : FrameRun device readback block state run) : drives run.events = [] := by
  cases h <;> rfl

lemma writes_eq (h : FrameRun device readback block state run) :
    writes run.events = [writeRequest block] := by
  cases h <;> rfl

lemma delivered_of_ok (h : FrameRun device readback block state run) (hok : run.value = .ok ()) :
    Delivered readback block (busEvents run.events) := by
  cases h with
  | writeFailed | readFailed | mismatched => cases hok
  | unread hoff =>
    subst hoff
    exact .unread block
  | matched hon _ _ hdata =>
    subst hon
    exact .matched hdata

/-- What the bus shows of a frame that failed is not the start of any delivery. -/
lemma not_delivered_of_error {halt : Halt} (h : FrameRun device readback block state run)
    (herror : run.value = .error halt) {now later : List Bus.Event}
    (hnow : Delivered readback block now) : busEvents run.events ≠ now ++ later := by
  cases h with
  | unread | matched => cases herror
  | writeFailed =>
    intro hevents
    cases hnow <;> cases hevents
  | readFailed hon =>
    intro hevents
    subst hon
    cases hnow
    cases hevents
  | mismatched hon _ _ hdata =>
    intro hevents
    subst hon
    cases hnow with
    | matched hdata' =>
      cases hevents
      exact hdata hdata'

end FrameRun

/-! ## Whole loads -/

namespace LoadRun

variable {blocks : List (List Entry)} {state : δ} {run : Bus.Run (Except Halt Unit) δ}

lemma drives_eq_nil (h : LoadRun device readback blocks state run) : drives run.events = [] := by
  induction h with
  | finished => rfl
  | failed hframe => exact hframe.drives_eq_nil
  | passed hframe _ _ ih => rw [Bus.drives_append, hframe.drives_eq_nil, ih]; rfl

/-- A load that goes well has written each of its frames once, in order. -/
lemma writes_of_ok (h : LoadRun device readback blocks state run) (hok : run.value = .ok ()) :
    writes run.events = blocks.map writeRequest := by
  induction h with
  | finished => rfl
  | failed _ herror =>
    rw [hok] at herror
    cases herror
  | passed hframe _ _ ih => rw [Bus.writes_append, hframe.writes_eq, ih hok]; rfl

/-- **A load ends well exactly if the bus shows that every block was delivered.** -/
theorem ok_iff (h : LoadRun device readback blocks state run) :
    run.value = .ok () ↔ AllDelivered readback blocks (busEvents run.events) := by
  induction h with
  | finished => exact ⟨fun _ => .nil, fun _ => rfl⟩
  | failed hframe herror =>
    rw [herror]
    constructor
    · intro hok
      cases hok
    · intro hall
      generalize hevents : busEvents _ = events at hall
      cases hall with
      | cons hnow hlater => exact (hframe.not_delivered_of_error herror hnow hevents).elim
  | passed hframe hok _ ih =>
    have hnow := hframe.delivered_of_ok hok
    rw [ih, Bus.busEvents_append]
    exact ⟨.cons hnow, .later hnow⟩

end LoadRun

end SignalCore.Loader
