import SignalCore.Convolution.Basic
import SignalCore.Proofs.Buffer

/-!
# Blocks of four outputs

A block whose four sums are given by position is `Quad.ofFn`; a run of such blocks, laid out one
after another, is the run of the positions (`flatMap_ofFn`).
-/

namespace SignalCore.Convolution.Quad

variable {A : Type}

/-- The sums at positions `0`, `1`, `2` and `3`. -/
def ofFn (sum : ℕ → A) : Quad A :=
  ⟨sum 0, sum 1, sum 2, sum 3⟩

lemma ofFn_congr {sum sum' : ℕ → A} (h : ∀ j < 4, sum j = sum' j) : ofFn sum = ofFn sum' := by
  rw [ofFn, ofFn, h 0 (by omega), h 1 (by omega), h 2 (by omega), h 3 (by omega)]

lemma getElem?_toList_ofFn (sum : ℕ → A) {j : ℕ} (hj : j < 4) :
    (ofFn sum).toList[j]? = some (sum j) := by
  obtain rfl | rfl | rfl | rfl : j = 0 ∨ j = 1 ∨ j = 2 ∨ j = 3 := by omega
  all_goals rfl

lemma flatMap_ofFn (sum : ℕ → A) (base count : ℕ) :
    ((List.range' 0 count).map fun block => ofFn fun j => sum (base + 4 * block + j)).flatMap
      toList = (List.range' base (4 * count)).map sum := by
  induction count with
  | zero => rfl
  | succ count ih =>
    have hblock : (List.range' (base + 4 * count) 4).map sum =
        toList (ofFn fun j => sum (base + 4 * count + j)) := rfl
    rw [List.range'_concat, List.map_append, List.flatMap_append, ih, Nat.mul_succ,
      ← List.range'_append_1, List.map_append, hblock]
    simp

end SignalCore.Convolution.Quad
