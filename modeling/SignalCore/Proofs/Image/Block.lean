import SignalCore.Image.Block
import Mathlib.Data.List.Chain

/-!
# What the blocks of a list of entries are

The blocks put together are the list (`flatten_blocks`).  Each holds at least one entry, no more
than go out in one frame, and only entries whose addresses advance by one word
(`isBlock_of_mem_blocks`), so a block is a single frame (`IsBlock.frames_eq`).  Entries of any
addresses are cut into frames that hold at least one and fit (`fits_of_mem_frames`), each as long as
it may be but for the last (`frames_eq_map_range`).
-/

namespace SignalCore.Image

/-- The addresses of the entries advance by one word. -/
def Consecutive (entries : List Entry) : Prop :=
  entries.IsChain fun first second => second.address = first.address + 4

lemma consecutive_singleton (entry : Entry) : Consecutive [entry] :=
  List.isChain_singleton entry

lemma consecutive_cons_cons {first second : Entry} {rest : List Entry} :
    Consecutive (first :: second :: rest) ↔
      second.address = first.address + 4 ∧ Consecutive (second :: rest) :=
  List.isChain_cons_cons

/-! ## Runs -/

lemma length_continueRun (room : ℕ) (address : UInt32) (entries : List Entry) :
    (continueRun room address entries).1.length ≤ room := by
  fun_induction continueRun room address entries with
  | case1 | case2 | case4 => exact Nat.zero_le _
  | case3 room address entry rest _ run ih => exact Nat.succ_le_succ ih

lemma consecutive_continueRun (room : ℕ) (first : Entry) (rest : List Entry) :
    Consecutive (first :: (continueRun room first.address rest).1) := by
  induction room generalizing first rest with
  | zero => exact consecutive_singleton first
  | succ room ih =>
    cases rest with
    | nil => exact consecutive_singleton first
    | cons second rest =>
      rw [continueRun]
      split_ifs with hnext
      · exact consecutive_cons_cons.2 ⟨hnext, ih second rest⟩
      · exact consecutive_singleton first

/-! ## Blocks -/

/-- The blocks put together are the entries. -/
theorem flatten_blocks (entries : List Entry) : (blocks entries).flatten = entries := by
  fun_induction blocks entries with
  | case1 => rfl
  | case2 first rest ih =>
    rw [List.flatten_cons, ih, List.cons_append, continueRun_append]

/-- A block is a run of consecutive entries that fits into one frame. -/
structure IsBlock (block : List Entry) : Prop where
  ne_nil : block ≠ []
  length_le : block.length ≤ Bus.maxBlockWords
  consecutive : Consecutive block

theorem isBlock_of_mem_blocks {block entries : List Entry} (h : block ∈ blocks entries) :
    IsBlock block := by
  fun_induction blocks entries with
  | case1 => simp at h
  | case2 first rest ih =>
    rcases List.mem_cons.1 h with rfl | hrest
    · refine ⟨List.cons_ne_nil _ _, ?_, consecutive_continueRun _ _ _⟩
      have hlength := length_continueRun (Bus.maxBlockWords - 1) first.address rest
      rw [List.length_cons]
      exact Nat.succ_le_succ hlength
    · exact ih hrest

/-! ## Frames -/

/-- Entries that fit into one frame are one frame. -/
lemma frames_of_length_le {entries : List Entry} (hne : entries ≠ [])
    (h : entries.length ≤ Bus.maxBlockWords) : frames entries = [entries] := by
  cases entries with
  | nil => exact (hne rfl).elim
  | cons first rest =>
    have hrest : rest.length ≤ Bus.maxBlockWords - 1 := Nat.le_sub_one_of_lt h
    rw [frames, List.take_of_length_le hrest, List.drop_of_length_le hrest, frames]

/-- Whatever the entries, no frame is empty or too long. -/
lemma fits_of_mem_frames {frame entries : List Entry} (h : frame ∈ frames entries) :
    frame ≠ [] ∧ frame.length ≤ Bus.maxBlockWords := by
  fun_induction frames entries with
  | case1 => simp at h
  | case2 first rest ih =>
    rcases List.mem_cons.1 h with rfl | hrest
    · refine ⟨List.cons_ne_nil _ _, ?_⟩
      rw [List.length_cons]
      exact Nat.succ_le_succ (List.length_take_le _ _)
    · exact ih hrest

/-- The frames put together are the entries. -/
theorem flatten_frames (entries : List Entry) : (frames entries).flatten = entries := by
  fun_induction frames entries with
  | case1 => rfl
  | case2 first rest ih =>
    rw [List.flatten_cons, ih, List.cons_append, List.take_append_drop]

/-- A frame begins every `Bus.maxBlockWords` entries. -/
theorem frames_eq_map_range (entries : List Entry) :
    frames entries =
      (List.range ((entries.length + (Bus.maxBlockWords - 1)) / Bus.maxBlockWords)).map fun j =>
        (entries.drop (Bus.maxBlockWords * j)).take Bus.maxBlockWords := by
  fun_induction frames entries with
  | case1 => rfl
  | case2 first rest ih =>
    have hcount : ((first :: rest).length + (Bus.maxBlockWords - 1)) / Bus.maxBlockWords =
        ((rest.drop (Bus.maxBlockWords - 1)).length + (Bus.maxBlockWords - 1)) /
          Bus.maxBlockWords + 1 := by
      simp only [List.length_cons, List.length_drop, Bus.maxBlockWords]
      omega
    rw [hcount, List.range_succ_eq_map, List.map_cons, List.map_map, ih]
    congr 1
    refine List.map_congr_left fun j _ => ?_
    rw [Function.comp_apply, Nat.mul_succ, Nat.add_comm, ← List.drop_drop]
    rfl

/-- Entries that follow each other are cut into blocks. -/
lemma isBlock_of_mem_frames {entries frame : List Entry} (hentries : Consecutive entries)
    (h : frame ∈ frames entries) : IsBlock frame := by
  obtain ⟨hne, hlength⟩ := fits_of_mem_frames h
  have hinfix := List.infix_of_mem_flatten h
  rw [flatten_frames] at hinfix
  exact ⟨hne, hlength, hentries.infix hinfix⟩

lemma IsBlock.frames_eq {block : List Entry} (h : IsBlock block) : frames block = [block] :=
  frames_of_length_le h.ne_nil h.length_le

end SignalCore.Image
