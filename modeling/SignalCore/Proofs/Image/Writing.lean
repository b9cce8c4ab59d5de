import SignalCore.Image.Scan
import SignalCore.Proofs.Image.Entry

/-!
# Images that read back

A list of entries can be written as an image in many ways (`Written`): one line for each entry,
which holds it in any spelling that is not too long, lines of blanks anywhere between, and either of
two line endings after every line but the last.  `print` is one of them.

What a line holds does not depend on a carriage return at its end (`Holds.dropReturn`), so a line is
read the same with both endings.  A reading takes up what each line holds (`scanFrom_cons_of_holds`)
and therefore what all of them hold (`scanFrom_of_written`).
-/

namespace SignalCore.Image

open Text (Blank isBlank utf8Length dropReturn splitLines)
open Text.Hex (Numeral)

/-! ## Writing -/

/-- What a line holds: nothing if all of it is blank, however long it is, and one entry if it is a
spelling that is not too long. -/
inductive Holds : List Char → List Entry → Prop
  | blank {line : List Char} (hblank : Blank line) (hfeed : '\n' ∉ line) : Holds line []
  | entry {line : List Char} {entry : Entry} (hspells : Spells line entry)
      (hlength : utf8Length line ≤ Entry.maxLineLength) (hfeed : '\n' ∉ line) : Holds line [entry]

/-- What ends a line that is not the last one. -/
def IsLineEnding (ending : List Char) : Prop :=
  ending = ['\n'] ∨ ending = ['\r', '\n']

/-- The text is an image of the entries.  It ends with a line that has no ending, which holds
nothing if it is empty. -/
inductive Written : List Char → List Entry → Prop
  | last {line : List Char} {entries : List Entry} (hline : Holds line entries) :
      Written line entries
  | line {line ending text : List Char} {entries rest : List Entry} (hline : Holds line entries)
      (hending : IsLineEnding ending) (hrest : Written text rest) :
      Written (line ++ ending ++ text) (entries ++ rest)

/-! ## Lines and their endings -/

lemma Holds.feed_notMem {line : List Char} {entries : List Entry} (h : Holds line entries) :
    '\n' ∉ line := by
  cases h with
  | blank _ hfeed => exact hfeed
  | entry _ _ hfeed => exact hfeed

lemma Holds.dropReturn {line : List Char} {entries : List Entry} (h : Holds line entries) :
    Holds (dropReturn line) entries := by
  rcases Text.dropReturn_eq_or_append line with hsame | hreturn
  · rwa [hsame]
  · -- what was taken off is one blank, which neither kind of line needs
    have hmem : ∀ c ∈ Text.dropReturn line, c ∈ line := by
      intro c hc
      rw [hreturn]
      exact List.mem_append_left _ hc
    cases h with
    | blank hblank hfeed =>
      exact .blank (fun c hc => hblank c (hmem c hc)) (fun hc => hfeed (hmem _ hc))
    | entry hspells hlength hfeed =>
      refine .entry ?_ ?_ (fun hc => hfeed (hmem _ hc))
      · rw [spells_iff_trim] at hspells ⊢
        rwa [hreturn, Text.trim_append_of_isBlank (by decide)] at hspells
      · rw [hreturn, Text.utf8Length_append] at hlength
        exact Nat.le_of_add_right_le hlength

/-- A line with its ending is the first line of the text, and holds what it did without. -/
lemma Holds.exists_first {line ending : List Char} {entries : List Entry} (h : Holds line entries)
    (hending : IsLineEnding ending) (text : List Char) :
    ∃ first, splitLines (line ++ ending ++ text) = first :: splitLines text ∧
      Holds (Text.dropReturn first) entries := by
  rcases hending with rfl | rfl
  · refine ⟨line, ?_, h.dropReturn⟩
    rw [List.append_assoc]
    exact Text.splitLines_append h.feed_notMem text
  · have hfeed : '\n' ∉ line ++ ['\r'] := by simpa using h.feed_notMem
    refine ⟨line ++ ['\r'], ?_, ?_⟩
    · rw [← Text.splitLines_append hfeed text]
      simp
    · rwa [Text.dropReturn_append_return]

/-! ## Reading -/

lemma scanFrom_cons_of_blank {line : List Char} (hblank : (dropReturn line).all isBlank)
    (capacity first filled : ℕ) (lines : List (List Char)) (slots : List Entry) :
    scanFrom capacity first filled (line :: lines) slots =
      scanFrom capacity (first + 1) filled lines slots :=
  (scanFrom.eq_def ..).trans (if_pos hblank)

lemma scanFrom_cons_of_entry {line : List Char} {entry : Entry}
    (hvisible : ¬ (dropReturn line).all isBlank)
    (hentry : Entry.ofLine? (dropReturn line) = some entry) (capacity first filled : ℕ)
    (lines : List (List Char)) (slot : Entry) (slots : List Entry) :
    let reading := scanFrom capacity (first + 1) (filled + 1) lines slots
    scanFrom capacity first filled (line :: lines) (slot :: slots) =
      ⟨reading.result, entry :: reading.slots⟩ := by
  refine (scanFrom.eq_def ..).trans ((if_neg hvisible).trans ?_)
  rw [hentry]

/-- A reading takes up what the first line holds and goes on with the others. -/
lemma scanFrom_cons_of_holds {capacity first filled : ℕ} {line : List Char}
    {lines : List (List Char)} {slots entries : List Entry}
    (hline : Holds (dropReturn line) entries) (hfit : entries.length ≤ slots.length) :
    let reading := scanFrom capacity (first + 1) (filled + entries.length) lines
      (slots.drop entries.length)
    scanFrom capacity first filled (line :: lines) slots =
      ⟨reading.result, entries ++ reading.slots⟩ := by
  generalize hheld : dropReturn line = held at hline
  cases hline with
  | blank hblank _ =>
    subst hheld
    exact scanFrom_cons_of_blank (List.all_eq_true.2 hblank) ..
  | entry hspells hlength _ =>
    subst hheld
    obtain ⟨slot, slots, rfl⟩ := List.exists_cons_of_length_pos hfit
    exact scanFrom_cons_of_entry hspells.not_blank (ofLine?_of_spells hspells hlength) ..

/-- From any line on, a reading of a written image takes up the entries that are written there. -/
lemma scanFrom_of_written {capacity first filled : ℕ} {text : List Char}
    {slots entries : List Entry} (hwritten : Written text entries)
    (hfit : entries.length ≤ slots.length) :
    scanFrom capacity first filled (splitLines text) slots =
      ⟨if filled + entries.length = 0 then .error .empty else .ok (filled + entries.length),
        entries ++ slots.drop entries.length⟩ := by
  induction hwritten generalizing first filled slots with
  | last hline =>
    rw [Text.splitLines_of_notMem hline.feed_notMem,
      scanFrom_cons_of_holds hline.dropReturn hfit, scanFrom]
  | @line line ending text entries rest hline hending _ ih =>
    -- the rest is read into the slots after those that the first line fills
    rw [List.length_append] at hfit
    obtain ⟨line, hlines, hholds⟩ := hline.exists_first hending text
    rw [hlines, scanFrom_cons_of_holds hholds (by omega),
      ih (by rw [List.length_drop]; omega)]
    simp only [List.length_append, List.append_assoc, List.drop_drop, Nat.add_assoc]

/-! ## An image of any entries -/

/-- The line of an entry, with eight digits for each number. -/
def printLine (entry : Entry) : List Char :=
  Text.Hex.digits 8 entry.address.toNat ++ '_' :: Text.Hex.digits 8 entry.data.toNat

/-- One line after the other, each with a line feed. -/
def print (entries : List Entry) : List Char :=
  entries.flatMap fun entry => printLine entry ++ ['\n']

lemma holds_printLine (entry : Entry) : Holds (printLine entry) [entry] := by
  have hnumeral : ∀ word : UInt32, Numeral (Text.Hex.digits 8 word.toNat) word.toNat :=
    fun word => Text.Hex.numeral_digits (by decide) word.toNat_lt
  have hempty : Blank [] := fun _ hc => absurd hc List.not_mem_nil
  have hspells : Spells ([] ++ printLine entry ++ []) entry :=
    .numerals hempty (hnumeral _) (hnumeral _) hempty
  refine .entry (by simpa using hspells) ?_ ?_
  · rw [printLine, Text.utf8Length_append, utf8Length, Text.Hex.utf8Length_digits,
      Text.Hex.utf8Length_digits]
    decide
  · rw [printLine, List.mem_append, List.mem_cons]
    have hfeed : isBlank '\n' = true := by decide
    rintro (hmem | hunderscore | hmem)
    · exact notMem_numeral_of_isBlank hfeed (hnumeral _) hmem
    · exact absurd hunderscore (by decide)
    · exact notMem_numeral_of_isBlank hfeed (hnumeral _) hmem

lemma written_print (entries : List Entry) : Written (print entries) entries := by
  induction entries with
  | nil => exact .last (.blank (fun _ hc => absurd hc List.not_mem_nil) List.not_mem_nil)
  | cons entry entries ih => exact .line (holds_printLine entry) (.inl rfl) ih

/-! ## The round trip -/

/-- **An image reads back as the entries that are written in it.**  Any entries can be written.
However they are written, a reading into enough slots succeeds with their number, leaves them at the
start of the slots in their order, and keeps the slots after them. -/
theorem scan_of_written (entries : List Entry) :
    Written (print entries) entries ∧
    ∀ (text : String) (slots : List Entry), Written text.toList entries → entries ≠ [] →
      entries.length ≤ slots.length →
      scan text slots = ⟨.ok entries.length, entries ++ slots.drop entries.length⟩ := by
  refine ⟨written_print entries, ?_⟩
  intro text slots hwritten hne hfit
  have hpos : entries.length ≠ 0 := mt List.length_eq_zero_iff.1 hne
  rw [scan, scanFrom_of_written hwritten hfit, Nat.zero_add, if_neg hpos]

/-- A line of eighteen bytes, a longer line of blanks, an empty line, both line endings and digits
of both cases. -/
theorem scan_of_written_at_limit :
    let entries : List Entry := [⟨0xA, 0xFF⟩, ⟨0x1C000084, 0xDEADBEEF⟩]
    let text := "00000000A_000000fF\r\n                    \n\r\n\t1c000084_DEADBEEF"
    scan text [⟨7, 7⟩, ⟨7, 7⟩, ⟨8, 8⟩] = ⟨.ok 2, entries ++ [⟨8, 8⟩]⟩ := by
  intro entries text
  let first := "00000000A_000000fF".toList
  let blanks := "                    ".toList
  let second := "\t1c000084_DEADBEEF".toList
  have htext : text.toList = first ++ ['\r', '\n'] ++
      (blanks ++ ['\n'] ++ ([] ++ ['\r', '\n'] ++ second)) := by decide +kernel
  have hfirst : Entry.ofLine? first = some ⟨0xA, 0xFF⟩ := by decide +kernel
  have hsecond : Entry.ofLine? second = some ⟨0x1C000084, 0xDEADBEEF⟩ := by decide +kernel
  have hblanks : blanks.all isBlank = true := by decide +kernel
  have hread : ∀ {line entry}, Entry.ofLine? line = some entry → '\n' ∉ line → Holds line [entry] :=
    fun h hfeed => .entry (spells_of_ofLine? h).2 (spells_of_ofLine? h).1 hfeed
  have hwritten : Written text.toList entries := by
    rw [htext]
    exact .line (hread hfirst (by decide +kernel)) (.inr rfl)
      (.line (.blank (List.all_eq_true.1 hblanks) (by decide +kernel)) (.inl rfl)
        (.line (.blank (by simp [Blank]) (by simp)) (.inr rfl)
          (.last (hread hsecond (by decide +kernel)))))
  exact (scan_of_written entries).2 text _ hwritten (by decide) (by decide)

end SignalCore.Image
