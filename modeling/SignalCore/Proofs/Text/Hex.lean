import SignalCore.Text.Hex
import SignalCore.Proofs.Text.Line
import Mathlib.Data.List.Forall2
import Mathlib.Data.Nat.Digits.Defs
import Mathlib.Tactic.IntervalCases
import Mathlib.Tactic.Ring

/-!
# What a hexadecimal number spells

A numeral is a run of digits of either case, the highest first, and its value is that of the digits
in base sixteen; zeros in front are free (`Numeral`).  A run is read as a 32-bit word exactly if it
is a numeral of that word (`word?_eq_some_iff`), so nothing else than digits is read and no value
that is too large.  What is written in enough digits is a numeral of what was written
(`numeral_digits`).
-/

namespace SignalCore.Text.Hex

/-! ## Digits -/

/-- The character is the digit of this value, in either case. -/
def IsDigit (c : Char) (value : ℕ) : Prop :=
  value < 16 ∧ (c = Nat.digitChar value ∨ c = (Nat.digitChar value).toUpper)

instance (c : Char) (value : ℕ) : Decidable (IsDigit c value) :=
  inferInstanceAs (Decidable (_ ∧ _))

lemma digit?_of_isDigit {c : Char} {value : ℕ} (h : IsDigit c value) : digit? c = some value := by
  obtain ⟨hlt, hc⟩ := h
  interval_cases value <;> rcases hc with rfl | rfl <;> rfl

lemma isDigit_of_digit? {c : Char} {value : ℕ} (h : digit? c = some value) : IsDigit c value := by
  have hbounds : ∀ first last : Char, first ≤ c ∧ c ≤ last →
      first.toNat ≤ c.toNat ∧ c.toNat ≤ last.toNat := fun _ _ hc => hc
  rw [digit?] at h
  rw [← Char.ofNat_toNat c]
  split_ifs at h with hrange hrange hrange
  -- each range holds a few characters, and each of these is the digit of its place in the range
  all_goals
    obtain rfl := Option.some.inj h
    obtain ⟨hlow, hhigh⟩ := hbounds _ _ hrange
    simp only [Char.reduceToNat] at hlow hhigh ⊢
    generalize c.toNat = code at *
    interval_cases code <;> decide

lemma digit?_eq_some_iff {c : Char} {value : ℕ} : digit? c = some value ↔ IsDigit c value :=
  ⟨isDigit_of_digit?, digit?_of_isDigit⟩

/-! ## Numerals -/

/-- The characters are the digits of the value in base sixteen, the highest first.  There is at
least one, and zeros may stand in front. -/
def Numeral (text : List Char) (value : ℕ) : Prop :=
  text ≠ [] ∧ ∃ digits, List.Forall₂ IsDigit text digits ∧ value = Nat.ofDigits 16 digits.reverse

lemma Numeral.exists_isDigit {text : List Char} {value : ℕ} (h : Numeral text value) {c : Char}
    (hc : c ∈ text) : ∃ digit, IsDigit c digit := by
  obtain ⟨-, digits, hdigits, -⟩ := h
  induction hdigits with
  | nil => exact absurd hc List.not_mem_nil
  | cons hdigit _ ih =>
    rcases List.mem_cons.1 hc with rfl | hrest
    · exact ⟨_, hdigit⟩
    · exact ih hrest

/-- Digits that are read after others shift the value of those. -/
lemma valueFrom?_eq_some_iff {text : List Char} {start value : ℕ} :
    valueFrom? start text = some value ↔
      ∃ digits, List.Forall₂ IsDigit text digits ∧
        value = 16 ^ text.length * start + Nat.ofDigits 16 digits.reverse := by
  induction text generalizing start with
  | nil =>
    rw [valueFrom?, Option.some_inj]
    constructor
    · rintro rfl
      exact ⟨[], .nil, by simp⟩
    · rintro ⟨digits, hdigits, rfl⟩
      obtain rfl := List.forall₂_nil_left_iff.1 hdigits
      simp
  | cons c rest ih =>
    have hread : valueFrom? start (c :: rest) =
        (digit? c).bind fun digit => valueFrom? (16 * start + digit) rest := rfl
    -- the value of the whole run, from its first digit and the digits after it
    have hvalue : ∀ digit digits, List.Forall₂ IsDigit rest digits →
        16 ^ (c :: rest).length * start + Nat.ofDigits 16 (digit :: digits).reverse =
          16 ^ rest.length * (16 * start + digit) + Nat.ofDigits 16 digits.reverse := by
      intro digit digits hdigits
      rw [List.reverse_cons, Nat.ofDigits_append, Nat.ofDigits_singleton, List.length_reverse,
        ← hdigits.length_eq, List.length_cons]
      ring
    simp only [hread, Option.bind_eq_some_iff, ih, digit?_eq_some_iff]
    constructor
    · rintro ⟨digit, hdigit, digits, hdigits, rfl⟩
      exact ⟨digit :: digits, .cons hdigit hdigits, (hvalue digit digits hdigits).symm⟩
    · rintro ⟨_, hall, rfl⟩
      obtain ⟨digit, digits, hdigit, hdigits, rfl⟩ := List.forall₂_cons_left_iff.1 hall
      exact ⟨digit, hdigit, digits, hdigits, hvalue digit digits hdigits⟩

lemma value?_eq_some_iff {text : List Char} {value : ℕ} :
    value? text = some value ↔ Numeral text value := by
  cases text with
  | nil => simp [value?, Numeral]
  | cons c rest => simp [value?, Numeral, valueFrom?_eq_some_iff]

/-- The runs that are read as a word are its numerals. -/
theorem word?_eq_some_iff {text : List Char} {word : UInt32} :
    word? text = some word ↔ Numeral text word.toNat := by
  have hread : word? text = (value? text).bind fun value =>
      if value < UInt32.size then some (UInt32.ofNat value) else none := rfl
  simp only [hread, Option.bind_eq_some_iff, value?_eq_some_iff]
  constructor
  · rintro ⟨value, hnumeral, hword⟩
    split_ifs at hword with hfits
    obtain rfl := Option.some.inj hword
    rwa [UInt32.toNat_ofNat_of_lt' hfits]
  · intro hnumeral
    exact ⟨word.toNat, hnumeral, by rw [if_pos word.toNat_lt_size, UInt32.ofNat_toNat]⟩

/-! ## Written digits -/

/-- Written digits are those of the value, as far as they reach. -/
lemma exists_digits (width value : ℕ) :
    ∃ values, List.Forall₂ IsDigit (digits width value) values ∧
      value % 16 ^ width = Nat.ofDigits 16 values.reverse := by
  induction width generalizing value with
  | zero => exact ⟨[], .nil, by simp [Nat.mod_one]⟩
  | succ width ih =>
    obtain ⟨values, hvalues, hvalue⟩ := ih (value / 16)
    have hlast : IsDigit (Nat.digitChar (value % 16)) (value % 16) :=
      ⟨Nat.mod_lt _ (by decide), .inl rfl⟩
    refine ⟨values ++ [value % 16], List.rel_append hvalues (.cons hlast .nil), ?_⟩
    rw [List.reverse_append, List.reverse_singleton, List.singleton_append, Nat.ofDigits_cons,
      ← hvalue, pow_succ', Nat.mod_mul]

lemma numeral_digits {width value : ℕ} (hwidth : 0 < width) (hvalue : value < 16 ^ width) :
    Numeral (digits width value) value := by
  obtain ⟨values, hvalues, hsum⟩ := exists_digits width value
  rw [Nat.mod_eq_of_lt hvalue] at hsum
  refine ⟨?_, values, hvalues, hsum⟩
  obtain ⟨width, rfl⟩ := Nat.exists_eq_add_one.2 hwidth
  exact List.append_ne_nil_of_right_ne_nil _ (List.cons_ne_nil _ _)

lemma utf8Length_digits (width value : ℕ) : utf8Length (digits width value) = width := by
  induction width generalizing value with
  | zero => rfl
  | succ width ih =>
    have hlast : (Nat.digitChar (value % 16)).utf8Size = 1 := by
      have hlt : value % 16 < 16 := Nat.mod_lt _ (by decide)
      interval_cases value % 16 <;> rfl
    rw [digits, utf8Length_append, ih, utf8Length, hlast]
    rfl

end SignalCore.Text.Hex
