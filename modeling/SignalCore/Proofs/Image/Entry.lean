import SignalCore.Image.Entry
import SignalCore.Proofs.Text.Hex
import SignalCore.Proofs.Text.Line

/-!
# Which lines are entries

A line spells an entry if it consists of numerals of the address and of the data, with an underscore
between them and blanks around (`Spells`).  Numerals hold neither blanks nor underscores, so
trimming uncovers them and the first underscore parts them (`trim_spelling`, `ofLine?_of_trim`).
`ofLine?_accepts_spellings` says that nothing else is read.
-/

namespace SignalCore.Image

open Text (Blank isBlank trim utf8Length)
open Text.Hex (IsDigit Numeral)

/-- The line is a spelling of the entry, of any length. -/
inductive Spells : List Char → Entry → Prop
  | numerals {before address data after : List Char} {entry : Entry} (hbefore : Blank before)
      (haddress : Numeral address entry.address.toNat) (hdata : Numeral data entry.data.toNat)
      (hafter : Blank after) : Spells (before ++ (address ++ '_' :: data) ++ after) entry

/-! ## Characters of numerals -/

lemma not_isBlank_of_isDigit {c : Char} {digit : ℕ} (h : IsDigit c digit) : isBlank c = false := by
  obtain ⟨hlt, hc⟩ := h
  interval_cases digit <;> rcases hc with rfl | rfl <;> rfl

lemma notMem_numeral_of_isBlank {c : Char} (hc : isBlank c = true) {text : List Char} {value : ℕ}
    (h : Numeral text value) : c ∉ text := by
  intro hmem
  obtain ⟨digit, hdigit⟩ := h.exists_isDigit hmem
  exact Bool.false_ne_true ((not_isBlank_of_isDigit hdigit).symm.trans hc)

lemma underscore_notMem_numeral {text : List Char} {value : ℕ} (h : Numeral text value) :
    '_' ∉ text := by
  intro hmem
  obtain ⟨digit, hlt, hc⟩ := h.exists_isDigit hmem
  interval_cases digit <;> revert hc <;> decide

/-- Trimming leaves the two numerals and the underscore. -/
lemma trim_spelling {before address data after : List Char} {m n : ℕ} (hbefore : Blank before)
    (haddress : Numeral address m) (hdata : Numeral data n) (hafter : Blank after) :
    trim (before ++ (address ++ '_' :: data) ++ after) = address ++ '_' :: data := by
  obtain ⟨_, hfirst⟩ := haddress.exists_isDigit (List.head_mem haddress.1)
  obtain ⟨_, hlast⟩ := hdata.exists_isDigit (List.getLast_mem hdata.1)
  refine Text.trim_surround hbefore hafter (by simp) ?_ ?_
  · rw [List.head_append_left haddress.1]
    exact not_isBlank_of_isDigit hfirst
  · rw [List.getLast_append_of_ne_nil _ (List.cons_ne_nil _ _), List.getLast_cons hdata.1]
    exact not_isBlank_of_isDigit hlast

/-- A line is a spelling if trimming leaves the two numerals and the underscore. -/
lemma spells_iff_trim {line : List Char} {entry : Entry} :
    Spells line entry ↔ ∃ address data, trim line = address ++ '_' :: data ∧
      Numeral address entry.address.toNat ∧ Numeral data entry.data.toNat := by
  constructor
  · intro h
    cases h with
    | numerals hbefore haddress hdata hafter =>
      exact ⟨_, _, trim_spelling hbefore haddress hdata hafter, haddress, hdata⟩
  · rintro ⟨address, data, htrim, haddress, hdata⟩
    obtain ⟨before, after, hline, hbefore, hafter⟩ := Text.exists_surround line
    rw [hline, htrim]
    exact .numerals hbefore haddress hdata hafter

lemma Spells.not_blank {line : List Char} {entry : Entry} (h : Spells line entry) :
    ¬ line.all isBlank := by
  cases h with
  | numerals => simp [show isBlank '_' = false by decide]

/-! ## Reading -/

section Reading

variable {line : List Char}

lemma ofLine?_of_long (h : Entry.maxLineLength < utf8Length line) : Entry.ofLine? line = none :=
  if_pos h

lemma ofLine?_of_underscore_notMem (h : '_' ∉ trim line) : Entry.ofLine? line = none := by
  have hnone : (trim line).dropWhile (· ≠ '_') = [] := by
    rw [List.dropWhile_eq_nil_iff]
    intro c hc
    exact decide_eq_true (ne_of_mem_of_not_mem hc h)
  rw [Entry.ofLine?]
  dsimp only
  rw [hnone, ite_self]

/-- A line that is not too long is read as the numbers on either side of its first underscore. -/
lemma ofLine?_of_trim {address data : List Char} (hlength : utf8Length line ≤ Entry.maxLineLength)
    (htrim : trim line = address ++ '_' :: data) (hfirst : '_' ∉ address) :
    Entry.ofLine? line = (Text.Hex.word? address).bind fun address =>
      (Text.Hex.word? data).bind fun data => some ⟨address, data⟩ := by
  have hbefore : ∀ c ∈ address, decide (c ≠ '_') = true := fun c hc =>
    decide_eq_true (ne_of_mem_of_not_mem hc hfirst)
  have hdrop : (trim line).dropWhile (· ≠ '_') = '_' :: data := by
    rw [htrim, List.dropWhile_append_of_pos hbefore]
    exact List.dropWhile_cons_of_neg (by decide)
  have htake : (trim line).takeWhile (· ≠ '_') = address := by
    rw [htrim, List.takeWhile_append_of_pos hbefore, List.takeWhile_cons_of_neg (by decide),
      List.append_nil]
  rw [Entry.ofLine?, if_neg (Nat.not_lt.2 hlength)]
  dsimp only
  rw [hdrop, htake]
  rfl

/-- A spelling that is not too long is read as its entry. -/
lemma ofLine?_of_spells {entry : Entry} (h : Spells line entry)
    (hlength : utf8Length line ≤ Entry.maxLineLength) : Entry.ofLine? line = some entry := by
  obtain ⟨address, data, htrim, haddress, hdata⟩ := spells_iff_trim.1 h
  rw [ofLine?_of_trim hlength htrim (underscore_notMem_numeral haddress),
    Text.Hex.word?_eq_some_iff.2 haddress, Text.Hex.word?_eq_some_iff.2 hdata]
  rfl

/-- A line that is read is a spelling of what it is read as, and not too long. -/
lemma spells_of_ofLine? {entry : Entry} (h : Entry.ofLine? line = some entry) :
    utf8Length line ≤ Entry.maxLineLength ∧ Spells line entry := by
  have hlength : utf8Length line ≤ Entry.maxLineLength := by
    by_contra hlong
    rw [ofLine?_of_long (Nat.not_le.1 hlong)] at h
    contradiction
  have hunderscore : '_' ∈ trim line := by
    by_contra hnone
    rw [ofLine?_of_underscore_notMem hnone] at h
    contradiction
  obtain ⟨address, data, htrim, hfirst⟩ := List.eq_append_cons_of_mem hunderscore
  rw [ofLine?_of_trim hlength htrim hfirst] at h
  simp only [Option.bind_eq_some_iff, Text.Hex.word?_eq_some_iff, Option.some_inj] at h
  obtain ⟨_, haddress, _, hdata, rfl⟩ := h
  exact ⟨hlength, spells_iff_trim.2 ⟨address, data, htrim, haddress, hdata⟩⟩

end Reading

/-- **The lines that are read are the spellings that are not too long.**  Each is read as the entry
that it spells, and every other line is rejected. -/
theorem ofLine?_accepts_spellings (line : List Char) :
    (∀ entry, Entry.ofLine? line = some entry ↔
      utf8Length line ≤ Entry.maxLineLength ∧ Spells line entry) ∧
    (Entry.ofLine? line = none ↔
      Entry.maxLineLength < utf8Length line ∨ ∀ entry, ¬ Spells line entry) := by
  have haccepts : ∀ entry, Entry.ofLine? line = some entry ↔
      utf8Length line ≤ Entry.maxLineLength ∧ Spells line entry := fun entry =>
    ⟨spells_of_ofLine?, fun h => ofLine?_of_spells h.2 h.1⟩
  refine ⟨haccepts, ?_⟩
  simp only [Option.eq_none_iff_forall_ne_some, ne_eq, haccepts, not_and_or, Nat.not_le,
    forall_or_left]

/-- Blanks and zeros in front are free, and a sign or one value too many is not. -/
example :
    Entry.ofLine? " 00001a_FFFFFFFF\t".toList = some ⟨0x1A, 0xFFFFFFFF⟩ ∧
      Entry.ofLine? "1a_+1".toList = none ∧ Entry.ofLine? "1a_100000000".toList = none := by
  decide +kernel

end SignalCore.Image
