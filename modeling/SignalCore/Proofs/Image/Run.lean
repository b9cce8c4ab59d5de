import SignalCore.Proofs.Image.Cut
import Mathlib.Data.List.SplitBy

/-!
# Runs of any length

A run goes on for as long as the addresses of the entries do.  There are two ways to get blocks from
entries: `blocks` looks for the end of a run and for a full block at the same time, while `frames`
cuts a run that is known already and does not look at addresses.  They come to the same: the blocks
are the frames of the runs, one run after the other (`blocks_eq_flatMap_frames`).
-/

namespace SignalCore.Image

/-- The entries cut where their addresses do not go on, however long the pieces are. -/
def runs (entries : List Entry) : List (List Entry) :=
  entries.splitBy fun first second => second.address == first.address + 4

/-- A cut of the entries into runs of which none could have been longer. -/
structure IsRunCut (entries : List Entry) (cut : List (List Entry)) : Prop where
  flatten_eq : cut.flatten = entries
  ne_nil : ∀ run ∈ cut, run ≠ []
  consecutive : ∀ run ∈ cut, Consecutive run
  /-- No run goes on in the next. -/
  interrupted : cut.IsChain fun run next => Interrupts next run

/-! ## The one cut into runs -/

lemma isChain_interrupts_iff {cut : List (List Entry)} (hne : ∀ run ∈ cut, run ≠ []) :
    cut.IsChain (fun run next => Interrupts next run) ↔
      cut.IsChain fun run next => ∃ (hlast : run ≠ []) (hfirst : next ≠ []),
        ((next.head hfirst).address == (run.getLast hlast).address + 4) = false := by
  refine List.IsChain.iff_of_mem_imp fun run next hrun hnext => ?_
  have hlast := hne run hrun
  have hfirst := hne next hnext
  simp [Interrupts, List.getLast?_eq_some_getLast hlast, List.head?_eq_some_head hfirst, hlast,
    hfirst]

/-- There is exactly one cut into runs of which none could have been longer. -/
theorem isRunCut_iff {entries : List Entry} {cut : List (List Entry)} :
    IsRunCut entries cut ↔ cut = runs entries := by
  have hrun : ∀ run : List Entry, Consecutive run ↔
      run.IsChain fun first second => (second.address == first.address + 4) = true :=
    fun _ => List.IsChain.iff fun _ _ => beq_iff_eq.symm
  rw [eq_comm, runs, List.splitBy_eq_iff]
  constructor
  · intro h
    exact ⟨h.flatten_eq.symm, fun hnil => h.ne_nil [] hnil rfl,
      fun run hmem => (hrun run).1 (h.consecutive run hmem),
      (isChain_interrupts_iff h.ne_nil).1 h.interrupted⟩
  · rintro ⟨hflatten, hnil, hruns, hchain⟩
    have hne : ∀ run ∈ cut, run ≠ [] := by
      rintro run hmem rfl
      exact hnil hmem
    exact ⟨hflatten.symm, hne, fun run hmem => (hrun run).2 (hruns run hmem),
      (isChain_interrupts_iff hne).2 hchain⟩

/-! ## Frames of runs -/

/-- What interrupts a run interrupts the end of it. -/
lemma Interrupts.of_suffix {rest run part : List Entry} (h : Interrupts rest run)
    (hpart : part <:+ run) : Interrupts rest part := by
  obtain ⟨before, rfl⟩ := hpart
  by_cases hnil : part = []
  · simp [Interrupts, hnil]
  · rwa [Interrupts, List.getLast?_append_of_ne_nil _ hnil] at h

/-- A run that is interrupted is cut into its frames, and what interrupts it is cut for itself. -/
theorem blocks_append {run rest : List Entry} (hrun : Consecutive run)
    (hstop : Interrupts rest run) : blocks (run ++ rest) = frames run ++ blocks rest := by
  fun_induction frames run with
  | case1 => rfl
  | case2 first run ih =>
    have hlater : run.drop (Bus.maxBlockWords - 1) <:+ first :: run :=
      (List.drop_suffix _ run).trans (List.suffix_cons first run)
    have hfront : Consecutive (first :: run.take (Bus.maxBlockWords - 1)) :=
      hrun.prefix (List.prefix_cons_inj first |>.2 (List.take_prefix _ run))
    have hfull : (run.take (Bus.maxBlockWords - 1)).length = Bus.maxBlockWords - 1 ∨
        Interrupts (run.drop (Bus.maxBlockWords - 1) ++ rest)
          (first :: run.take (Bus.maxBlockWords - 1)) := by
      by_cases hlong : Bus.maxBlockWords - 1 ≤ run.length
      · exact .inl (List.length_take_of_le hlong)
      · rw [List.take_of_length_le (by omega), List.drop_of_length_le (by omega)]
        exact .inr hstop
    have hsplit : continueRun (Bus.maxBlockWords - 1) first.address (run ++ rest) =
        (run.take (Bus.maxBlockWords - 1), run.drop (Bus.maxBlockWords - 1) ++ rest) := by
      rw [← continueRun_eq hfront (List.length_take_le _ _) hfull, ← List.append_assoc,
        List.take_append_drop]
    rw [List.cons_append, blocks, hsplit, ih (hrun.suffix hlater) (hstop.of_suffix hlater),
      List.cons_append]

lemma IsRunCut.tail {entries run : List Entry} {cut : List (List Entry)}
    (h : IsRunCut entries (run :: cut)) : IsRunCut cut.flatten cut where
  flatten_eq := rfl
  ne_nil next hnext := h.ne_nil next (List.mem_cons_of_mem run hnext)
  consecutive next hnext := h.consecutive next (List.mem_cons_of_mem run hnext)
  interrupted := h.interrupted.tail

/-- What comes after the first run interrupts it. -/
lemma IsRunCut.stops {entries run : List Entry} {cut : List (List Entry)}
    (h : IsRunCut entries (run :: cut)) : Interrupts cut.flatten run := by
  cases cut with
  | nil => exact interrupts_nil run
  | cons next cut =>
    have hnext := (List.isChain_cons_cons.1 h.interrupted).1
    rw [List.flatten_cons]
    exact (interrupts_append_iff cut.flatten (h.tail.ne_nil next List.mem_cons_self)).2 hnext

/-- The blocks of some entries are the frames of their runs. -/
theorem IsRunCut.blocks_eq {entries : List Entry} {cut : List (List Entry)}
    (h : IsRunCut entries cut) : blocks entries = cut.flatMap frames := by
  induction cut generalizing entries with
  | nil => rw [← h.flatten_eq, List.flatten_nil, blocks, List.flatMap_nil]
  | cons run cut ih =>
    rw [← h.flatten_eq, List.flatten_cons,
      blocks_append (h.consecutive run List.mem_cons_self) h.stops, ih h.tail, List.flatMap_cons]

theorem blocks_eq_flatMap_frames (entries : List Entry) :
    blocks entries = (runs entries).flatMap frames :=
  (isRunCut_iff.2 rfl).blocks_eq

end SignalCore.Image
