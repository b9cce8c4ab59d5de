import SignalCore.Image.Scan
import SignalCore.Proofs.Text.Line

/-!
# How a reading of an image ends

The lines of an image that count are the visible ones, each under its number among all lines
(`visibleLines`).  A reading goes through them in order: it reads some of them into the slots, as
many as there are entries, and then stops before the rest.  `Stops` lists why, and with it what the
reading reports.  `scan_reads_visible_lines` is the whole account, with the slots that are left.
-/

namespace SignalCore.Image

/-! ## Visible lines -/

/-- The lines that are not blank, without their endings and each with its number, where the first
of all lines has number `first`. -/
def visibleFrom (first : ℕ) (lines : List (List Char)) : List (List Char × ℕ) :=
  ((lines.map Text.dropReturn).zipIdx first).filter fun line => !line.1.all Text.isBlank

/-- The lines of a text that are not blank, with their numbers from one on. -/
def visibleLines (text : String) : List (List Char × ℕ) :=
  visibleFrom 1 (text.toList.splitOn '\n')

lemma visibleFrom_cons_of_blank {line : List Char} (h : (Text.dropReturn line).all Text.isBlank)
    (first : ℕ) (lines : List (List Char)) :
    visibleFrom first (line :: lines) = visibleFrom (first + 1) lines := by
  simp [visibleFrom, h]

lemma visibleFrom_cons_of_not_blank {line : List Char}
    (h : ¬ (Text.dropReturn line).all Text.isBlank) (first : ℕ) (lines : List (List Char)) :
    visibleFrom first (line :: lines) =
      (Text.dropReturn line, first) :: visibleFrom (first + 1) lines := by
  simp [visibleFrom, h]

/-! ## The end of a reading -/

/-- Why a reading that has filled `filled` of `capacity` slots goes no further, with these visible
lines still before it, and what it reports. -/
inductive Stops (capacity filled : ℕ) : List (List Char × ℕ) → Except Error ℕ → Prop
  | empty (hnone : filled = 0) : Stops capacity filled [] (.error .empty)
  | complete (hsome : 0 < filled) : Stops capacity filled [] (.ok filled)
  | malformed {line : List Char} {number : ℕ} {rest : List (List Char × ℕ)}
      (hline : Entry.ofLine? line = none) :
      Stops capacity filled ((line, number) :: rest) (.error (.malformedLine number))
  | full {line : List Char} {number : ℕ} {rest : List (List Char × ℕ)} {entry : Entry}
      (hline : Entry.ofLine? line = some entry) (hfull : filled = capacity) :
      Stops capacity filled ((line, number) :: rest) (.error (.tooManyEntries capacity))

/-- From any line on, a reading that has filled `filled` slots reads the entries of the first
visible lines into the slots that are left and stops before the rest of the lines. -/
lemma scanFrom_reads {capacity filled : ℕ} {slots : List Entry}
    (hcapacity : filled + slots.length = capacity) (first : ℕ) (lines : List (List Char)) :
    ∃ read rest entries,
      visibleFrom first lines = read ++ rest ∧
      read.map (fun line => Entry.ofLine? line.1) = entries.map some ∧
      entries.length ≤ slots.length ∧
      Stops capacity (filled + entries.length) rest
        (scanFrom capacity first filled lines slots).result ∧
      (scanFrom capacity first filled lines slots).slots =
        entries ++ slots.drop entries.length := by
  fun_induction scanFrom capacity first filled lines slots with
  | case1 first filled slots =>
    refine ⟨[], [], [], rfl, rfl, Nat.zero_le _, ?_, rfl⟩
    dsimp only
    split_ifs with hnone
    · exact .empty hnone
    · exact .complete (Nat.pos_of_ne_zero hnone)
  | case2 first filled ended lines slots line hblank ih =>
    rw [visibleFrom_cons_of_blank hblank]
    exact ih hcapacity
  | case3 first filled ended lines line hvisible slots hline =>
    rw [visibleFrom_cons_of_not_blank hvisible]
    exact ⟨[], _, [], rfl, rfl, Nat.zero_le _, .malformed hline, rfl⟩
  | case4 first filled ended lines line hvisible entry hline =>
    rw [visibleFrom_cons_of_not_blank hvisible]
    exact ⟨[], _, [], rfl, rfl, Nat.zero_le _, .full hline hcapacity, rfl⟩
  | case5 first filled ended lines line hvisible entry slot slots hline reading ih =>
    rw [List.length_cons] at hcapacity
    obtain ⟨read, rest, entries, hlines, hread, hfit, hstops, hslots⟩ := ih (by omega)
    rw [visibleFrom_cons_of_not_blank hvisible]
    refine ⟨(line, first) :: read, rest, entry :: entries, ?_, ?_, Nat.succ_le_succ hfit, ?_, ?_⟩
    · rw [hlines, List.cons_append]
    · rw [List.map_cons, List.map_cons, hread, hline]
    · rwa [List.length_cons, Nat.add_comm entries.length, ← Nat.add_assoc]
    · exact congrArg (entry :: ·) hslots

/-- A reading that ends well has not counted more entries than there are slots. -/
lemma count_le_length_of_scan {text : String} {slots : List Entry} {count : ℕ}
    (h : (scan text slots).result = .ok count) : count ≤ (scan text slots).slots.length := by
  obtain ⟨read, rest, entries, -, -, hfit, hstops, hslots⟩ :=
    scanFrom_reads (Nat.zero_add slots.length) 1 (Text.splitLines text.toList)
  rw [scan] at h ⊢
  rw [h, Nat.zero_add] at hstops
  rw [hslots, List.length_append]
  cases hstops
  exact Nat.le_add_right _ _

/-- **A reading goes through the visible lines from the first on.**  The slots start with the
entries of the lines that it read, in order, and every later slot is kept.  The reading stops before
the first line that is no entry, which it reports by its number, and before the first entry for
which no slot is left; it reports an image without visible lines as empty, and otherwise gives the
number of its entries. -/
theorem scan_reads_visible_lines (text : String) (slots : List Entry) :
    ∃ read rest entries,
      visibleLines text = read ++ rest ∧
      read.map (fun line => Entry.ofLine? line.1) = entries.map some ∧
      entries.length ≤ slots.length ∧
      Stops slots.length entries.length rest (scan text slots).result ∧
      (scan text slots).slots = entries ++ slots.drop entries.length := by
  rw [visibleLines, scan, Text.splitLines_eq_splitOn]
  simpa only [Nat.zero_add] using scanFrom_reads (Nat.zero_add slots.length) 1 _

/-- A blank line counts for the number of the malformed one, and the entry before it stays. -/
example :
    let reading := scan "1_2\r\n \nx_y\n3_4" [⟨7, 7⟩, ⟨8, 8⟩]
    reading.result = .error (.malformedLine 3) ∧ reading.slots = [⟨1, 2⟩, ⟨8, 8⟩] := by
  decide +kernel

end SignalCore.Image
