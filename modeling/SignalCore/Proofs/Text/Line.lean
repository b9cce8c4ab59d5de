import SignalCore.Text.Blank
import SignalCore.Text.Line
import Mathlib.Data.List.DropRight
import Mathlib.Tactic.Common

/-!
# How lines are cut and trimmed

The lines of a text are its pieces between line feeds (`splitLines_eq_splitOn`), and a piece that
comes before a line feed is a line of its own (`splitLines_append`).  Nothing but a carriage return
is taken off the end of a line (`dropReturn_eq_or_append`), and trimming takes off the blanks at
both ends and nothing else (`trim_surround`, `exists_surround`).
-/

namespace SignalCore.Text

/-! ## Lines -/

/-- The lines of a text are its pieces between line feeds. -/
lemma splitLines_eq_splitOn (text : List Char) : splitLines text = text.splitOn '\n' := by
  rw [List.splitOn_eq_splitOnP]
  induction text with
  | nil => rfl
  | cons c rest ih =>
    rw [splitLines, ih, List.splitOnP_cons_eq_if_modifyHead]
    by_cases hend : c = '\n'
    · simp [hend]
    · obtain ⟨line, lines, hlines⟩ := List.exists_cons_of_ne_nil
        (List.splitOnP_ne_nil (· == '\n') rest)
      simp [hend, hlines]

lemma splitLines_of_notMem {line : List Char} (h : '\n' ∉ line) : splitLines line = [line] := by
  rw [splitLines_eq_splitOn, List.splitOn_eq_singleton h]

lemma splitLines_append {line : List Char} (h : '\n' ∉ line) (text : List Char) :
    splitLines (line ++ '\n' :: text) = line :: splitLines text := by
  rw [splitLines_eq_splitOn, List.splitOn_append_cons_self_of_not_mem h, splitLines_eq_splitOn]

/-! ## Carriage returns -/

@[simp]
lemma dropReturn_append_return (line : List Char) : dropReturn (line ++ ['\r']) = line := by
  simp [dropReturn]

/-- A line loses nothing, or one carriage return at its end. -/
lemma dropReturn_eq_or_append (line : List Char) :
    dropReturn line = line ∨ line = dropReturn line ++ ['\r'] := by
  unfold dropReturn
  split_ifs with hreturn
  · exact .inr (List.dropLast_append_getLast? _ hreturn).symm
  · exact .inl rfl

lemma utf8Length_append (first second : List Char) :
    utf8Length (first ++ second) = utf8Length first + utf8Length second := by
  induction first with
  | nil => exact (Nat.zero_add _).symm
  | cons c rest ih => rw [List.cons_append, utf8Length, utf8Length, ih, Nat.add_assoc]

/-! ## Blanks at the ends -/

/-- Every character of the text is blank. -/
def Blank (text : List Char) : Prop :=
  ∀ c ∈ text, isBlank c = true

lemma trim_eq_rdropWhile (text : List Char) :
    trim text = (text.dropWhile isBlank).rdropWhile isBlank := rfl

/-- A blank at the end makes no difference to what is left. -/
lemma trim_append_of_isBlank {c : Char} (hc : isBlank c = true) (text : List Char) :
    trim (text ++ [c]) = trim text := by
  rw [trim_eq_rdropWhile, trim_eq_rdropWhile, List.dropWhile_append]
  split_ifs with hempty
  · rw [List.isEmpty_iff.1 hempty, List.dropWhile_cons_of_pos hc, List.dropWhile_nil]
  · exact List.rdropWhile_concat_pos _ _ _ hc

/-- What is left of a text without the blanks around it. -/
lemma exists_surround (text : List Char) :
    ∃ before after, text = before ++ trim text ++ after ∧ Blank before ∧ Blank after := by
  refine ⟨text.takeWhile isBlank, (text.dropWhile isBlank).rtakeWhile isBlank, ?_, ?_, ?_⟩
  · rw [trim_eq_rdropWhile, List.append_assoc, List.rdropWhile_append_rtakeWhile,
      List.takeWhile_append_dropWhile]
  · exact fun c hc => List.mem_takeWhile_imp hc
  · exact fun c hc => List.mem_rtakeWhile_imp hc

/-- A text whose first and last characters are not blank is what is left of it among blanks. -/
lemma trim_surround {before text after : List Char} (hbefore : Blank before) (hafter : Blank after)
    (hne : text ≠ []) (hfirst : isBlank (text.head hne) = false)
    (hlast : isBlank (text.getLast hne) = false) : trim (before ++ text ++ after) = text := by
  have hdrop : (before ++ text ++ after).dropWhile isBlank = text ++ after := by
    rw [List.append_assoc, List.dropWhile_append_of_pos hbefore]
    obtain ⟨first, rest, rfl⟩ := List.exists_cons_of_ne_nil hne
    exact List.dropWhile_cons_of_neg (by simpa using hfirst)
  have hblank : ∀ c ∈ after.reverse, isBlank c = true :=
    fun c hc => hafter c (List.mem_reverse.1 hc)
  rw [trim, hdrop, List.reverse_append, List.dropWhile_append_of_pos hblank]
  change text.rdropWhile isBlank = text
  rw [List.rdropWhile_eq_self_iff]
  intro _
  rw [hlast]
  exact Bool.false_ne_true

end SignalCore.Text
