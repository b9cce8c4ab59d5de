import SignalCore.Proofs.Image.Block
import Mathlib.Order.Bounds.Defs

/-!
# The one cut into longest blocks

A list of entries can be cut into blocks in many ways, but only in one way such that no two blocks
that stand side by side could have been joined further (`IsGreedyCut`): a run that stops there is
the one that is taken from the front (`continueRun_eq`), and a run from the front stops there
(`continueRun_stops`).  `blocks` gives this cut (`isGreedyCut_iff`).

No cut has fewer blocks (`isLeast_length_blocks`).  A run from the front gets at least as far as any
block that ends there (`continueRun_suffix`), so block by block the greedy cut leaves no more of the
entries than any other (`length_blocks_le_of_suffix`).
-/

namespace SignalCore.Image

/-- No entry at the front of `rest` goes on where the block ends. -/
def Interrupts (rest block : List Entry) : Prop :=
  ∀ last ∈ block.getLast?, ∀ next ∈ rest.head?, next.address ≠ last.address + 4

/-- The first block had to end before the second: it is full, or the second does not go on where it
ends. -/
def Parted (block next : List Entry) : Prop :=
  block.length = Bus.maxBlockWords ∨ Interrupts next block

/-- A cut of the entries into blocks of which none could have been longer. -/
structure IsGreedyCut (entries : List Entry) (cut : List (List Entry)) : Prop where
  flatten_eq : cut.flatten = entries
  isBlock : ∀ block ∈ cut, IsBlock block
  /-- Every two blocks that stand side by side are parted. -/
  parted : cut.IsChain Parted

/-! ## Where a run stops -/

@[simp]
lemma interrupts_nil (block : List Entry) : Interrupts [] block := by
  simp [Interrupts]

/-- Whether entries interrupt a block is up to the first of them. -/
lemma interrupts_append_iff {rest block : List Entry} (later : List Entry) (hne : rest ≠ []) :
    Interrupts (rest ++ later) block ↔ Interrupts rest block := by
  rw [Interrupts, List.head?_append_of_ne_nil _ hne, Interrupts]

lemma interrupts_cons_cons {rest block : List Entry} {first second : Entry} :
    Interrupts rest (first :: second :: block) ↔ Interrupts rest (second :: block) := by
  rw [Interrupts, List.getLast?_cons_cons, Interrupts]

/-- A run from the front stops when there is no room left or the next entry interrupts it. -/
lemma continueRun_stops (room : ℕ) (first : Entry) (rest : List Entry) :
    (continueRun room first.address rest).1.length = room ∨
      Interrupts (continueRun room first.address rest).2
        (first :: (continueRun room first.address rest).1) := by
  induction room generalizing first rest with
  | zero => exact .inl rfl
  | succ room ih =>
    cases rest with
    | nil => exact .inr (interrupts_nil _)
    | cons second rest =>
      rw [continueRun]
      split_ifs with hnext
      · rcases ih second rest with hfull | hstop
        · exact .inl (congrArg Nat.succ hfull)
        · exact .inr (interrupts_cons_cons.2 hstop)
      · exact .inr (by simpa [Interrupts] using hnext)

/-- A run that has no room left or is interrupted is the one that is taken from the front. -/
lemma continueRun_eq {room : ℕ} {first : Entry} {run rest : List Entry}
    (hrun : Consecutive (first :: run)) (hroom : run.length ≤ room)
    (hstop : run.length = room ∨ Interrupts rest (first :: run)) :
    continueRun room first.address (run ++ rest) = (run, rest) := by
  induction run generalizing room first with
  | nil =>
    rcases hstop with hfull | hstop
    · obtain rfl : 0 = room := hfull
      rfl
    · cases room with
      | zero => rfl
      | succ room =>
        cases rest with
        | nil => rfl
        | cons next rest =>
          rw [List.nil_append, continueRun, if_neg (hstop first rfl next rfl)]
  | cons second run ih =>
    obtain ⟨hnext, htail⟩ := consecutive_cons_cons.1 hrun
    obtain ⟨room, rfl⟩ := Nat.exists_eq_add_one.2 (Nat.zero_lt_of_lt hroom)
    have hrest : run.length = room ∨ Interrupts rest (second :: run) :=
      hstop.imp Nat.succ.inj interrupts_cons_cons.1
    rw [List.cons_append, continueRun, if_pos hnext, ih htail (Nat.le_of_succ_le_succ hroom) hrest]

/-! ## The cut -/

/-- The first block starts with the first entry. -/
lemma head?_of_head?_blocks {entries block : List Entry} (h : block ∈ (blocks entries).head?) :
    block.head? = entries.head? := by
  cases entries with
  | nil => simp [blocks] at h
  | cons first rest =>
    rw [blocks, List.head?_cons, Option.mem_some_iff] at h
    rw [← h, List.head?_cons, List.head?_cons]

lemma isChain_blocks (entries : List Entry) : (blocks entries).IsChain Parted := by
  fun_induction blocks entries with
  | case1 => exact List.isChain_nil
  | case2 first rest ih =>
    refine List.isChain_cons.2 ⟨?_, ih⟩
    intro next hnext
    refine (continueRun_stops (Bus.maxBlockWords - 1) first rest).imp ?_ ?_
    · intro hfull
      rw [List.length_cons, hfull]
      rfl
    · intro hstop
      rwa [Interrupts, head?_of_head?_blocks hnext]

lemma isGreedyCut_blocks (entries : List Entry) : IsGreedyCut entries (blocks entries) where
  flatten_eq := flatten_blocks entries
  isBlock _ hblock := isBlock_of_mem_blocks hblock
  parted := isChain_blocks entries

lemma IsGreedyCut.tail {entries block : List Entry} {cut : List (List Entry)}
    (h : IsGreedyCut entries (block :: cut)) : IsGreedyCut cut.flatten cut where
  flatten_eq := rfl
  isBlock next hnext := h.isBlock next (List.mem_cons_of_mem block hnext)
  parted := h.parted.tail

/-- What comes after the first block of a greedy cut stops it. -/
lemma IsGreedyCut.stops {entries block : List Entry} {cut : List (List Entry)}
    (h : IsGreedyCut entries (block :: cut)) : Parted block cut.flatten := by
  cases cut with
  | nil => exact .inr (interrupts_nil block)
  | cons next cut =>
    have hparted := (List.isChain_cons_cons.1 h.parted).1
    have hne : next ≠ [] := (h.tail.isBlock next List.mem_cons_self).ne_nil
    rw [List.flatten_cons]
    exact hparted.imp_right (interrupts_append_iff cut.flatten hne).2

lemma IsGreedyCut.eq_blocks {entries : List Entry} {cut : List (List Entry)}
    (h : IsGreedyCut entries cut) : cut = blocks entries := by
  induction cut generalizing entries with
  | nil =>
    rw [← h.flatten_eq, List.flatten_nil, blocks]
  | cons block cut ih =>
    -- the first block is the run from the front, and the others cut what comes after that run
    have hblock := h.isBlock block List.mem_cons_self
    obtain ⟨first, run, rfl⟩ := List.exists_cons_of_ne_nil hblock.ne_nil
    have hstop : run.length = Bus.maxBlockWords - 1 ∨ Interrupts cut.flatten (first :: run) :=
      h.stops.imp_left Nat.succ.inj
    have hrun : continueRun (Bus.maxBlockWords - 1) first.address (run ++ cut.flatten) =
        (run, cut.flatten) :=
      continueRun_eq hblock.consecutive (Nat.le_of_succ_le_succ hblock.length_le) hstop
    rw [← h.flatten_eq, List.flatten_cons, List.cons_append, blocks, hrun, ← ih h.tail]

lemma length_blocks_le (entries : List Entry) : (blocks entries).length ≤ entries.length := by
  fun_induction blocks entries with
  | case1 => exact Nat.le_refl 0
  | case2 first rest ih =>
    exact Nat.succ_le_succ (ih.trans (length_continueRun_le _ _ _))

/-- **Cutting ends, and gives the one greedy cut.**  There is at most one block for each entry, and
the blocks are the only cut of the entries into blocks of which none could have been longer. -/
theorem isGreedyCut_iff (entries : List Entry) :
    (blocks entries).length ≤ entries.length ∧
      ∀ cut, IsGreedyCut entries cut ↔ cut = blocks entries := by
  refine ⟨length_blocks_le entries, ?_⟩
  intro cut
  constructor
  · exact IsGreedyCut.eq_blocks
  · rintro rfl
    exact isGreedyCut_blocks entries

/-- A run goes on past the highest address, and a repeated address ends it. -/
example : blocks [⟨0xFFFFFFFC, 1⟩, ⟨0, 2⟩, ⟨0, 3⟩] = [[⟨0xFFFFFFFC, 1⟩, ⟨0, 2⟩], [⟨0, 3⟩]] := by
  decide +kernel

/-! ## The fewest blocks -/

/-- A cut of the entries into blocks, long or short. -/
structure IsCut (entries : List Entry) (cut : List (List Entry)) : Prop where
  flatten_eq : cut.flatten = entries
  isBlock : ∀ block ∈ cut, IsBlock block

/-- A run from the front takes at least a block that stands there. -/
lemma continueRun_suffix {room : ℕ} {first : Entry} {run : List Entry} (rest : List Entry)
    (hrun : Consecutive (first :: run)) (hroom : run.length ≤ room) :
    (continueRun room first.address (run ++ rest)).2 <:+ rest := by
  induction run generalizing room first with
  | nil => exact ⟨_, continueRun_append room first.address rest⟩
  | cons second run ih =>
    obtain ⟨hnext, htail⟩ := consecutive_cons_cons.1 hrun
    obtain ⟨room, rfl⟩ := Nat.exists_eq_add_one.2 (Nat.zero_lt_of_lt hroom)
    rw [List.cons_append, continueRun, if_pos hnext]
    exact ih htail (Nat.le_of_succ_le_succ hroom)

/-- The entries behind some point of a cut need no more blocks than the cut has. -/
theorem length_blocks_le_of_suffix {cut : List (List Entry)} (hcut : ∀ block ∈ cut, IsBlock block)
    {entries : List Entry} (hentries : entries <:+ cut.flatten) :
    (blocks entries).length ≤ cut.length := by
  induction cut generalizing entries with
  | nil =>
    rw [List.suffix_nil.1 hentries, blocks]
  | cons block cut ih =>
    obtain ⟨hblock, hrest⟩ := List.forall_mem_cons.1 hcut
    have hlater : ∀ {later : List Entry}, later <:+ cut.flatten →
        (blocks later).length ≤ cut.length := ih hrest
    obtain ⟨before, hsplit⟩ := hentries
    rw [List.flatten_cons] at hsplit
    rcases List.append_eq_append_iff.1 hsplit with ⟨left, hleft, rfl⟩ | ⟨passed, -, hpassed⟩
    · cases left with
      | nil => exact (hlater List.suffix_rfl).trans (Nat.le_succ _)
      | cons first run =>
        -- what is left of the block is a block, so the first run takes all of it
        have hsuffix : first :: run <:+ block := ⟨before, hleft.symm⟩
        have hroom : run.length ≤ Bus.maxBlockWords - 1 :=
          Nat.le_sub_one_of_lt (hsuffix.length_le.trans hblock.length_le)
        have hrun : Consecutive (first :: run) := hblock.consecutive.suffix hsuffix
        rw [List.cons_append, blocks]
        exact Nat.succ_le_succ (hlater (continueRun_suffix _ hrun hroom))
    · exact (hlater ⟨passed, hpassed.symm⟩).trans (Nat.le_succ _)

/-- **No cut into blocks has fewer.**  Of the numbers of blocks that the entries can be cut into,
`blocks` attains the least. -/
theorem isLeast_length_blocks (entries : List Entry) :
    IsLeast { count | ∃ cut, IsCut entries cut ∧ cut.length = count } (blocks entries).length := by
  constructor
  · have hcut : IsCut entries (blocks entries) :=
      ⟨flatten_blocks entries, fun _ => isBlock_of_mem_blocks⟩
    exact ⟨blocks entries, hcut, rfl⟩
  · rintro _ ⟨cut, hcut, rfl⟩
    exact length_blocks_le_of_suffix hcut.isBlock (hcut.flatten_eq ▸ List.suffix_rfl)

end SignalCore.Image
