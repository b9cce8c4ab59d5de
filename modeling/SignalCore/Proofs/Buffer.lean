import SignalCore.Buffer
import Mathlib.Tactic.Common

/-!
# What the buffer operations leave behind

Facts that every kernel rests on.  A run of samples of which none is missing is the plain list of
its samples (`tabulate?_eq_some`), a slice that fits is the slice (`slice?_eq_some`), and samples
written over a buffer are seen at its start and nowhere else (`getElem?_overlay_of_lt`,
`getElem?_overlay_of_le`, `extract_overlay`).

A loop that works in place is followed store by store.  `Fills samples place step?` says that a
step never fails on a buffer as long as `samples`, and brings it into agreement with `samples` at
the places that it gets to without spoiling it elsewhere.  Single stores, sequences and loops have
this property one after the other (`Fills.write`, `Fills.bind`, `Fills.foldlM_range`), and a loop
that gets to every place leaves exactly `samples`, whatever the buffer held (`Fills.eq_some`).
-/

namespace SignalCore.Buffer

variable {α : Type}

/-! ## Runs of samples -/

/-- A run of which no sample is missing is the list of its samples. -/
lemma tabulate?_eq_some {start count : ℕ} {sample? : ℕ → Option α} {sample : ℕ → α}
    (h : ∀ n, start ≤ n → n < start + count → sample? n = some (sample n)) :
    tabulate? start count sample? = some ((List.range' start count).map sample) := by
  unfold tabulate?
  induction count generalizing start with
  | zero => rfl
  | succ count ih =>
    rw [List.range'_succ, List.mapM_cons, h start (Nat.le_refl start) (by omega),
      ih fun n hn hlt => h n (by omega) (by omega)]
    rfl

/-! ## Slices -/

lemma slice?_eq_some {buffer : Array α} {start count : ℕ} (h : start + count ≤ buffer.size) :
    slice? buffer start count = some (buffer.extract start (start + count)) :=
  if_pos h

/-! ## Chunks -/

lemma chunkStarts?_eq_some {count size chunks : ℕ} (hpos : 0 < count)
    (hsize : size = chunks * count) :
    chunkStarts? count size = some ((List.range chunks).map (· * count)) := by
  rw [chunkStarts?, if_neg (Nat.pos_iff_ne_zero.1 hpos), hsize, Nat.mul_div_cancel _ hpos]

/-- Chunk `k` of the chunks of `count` samples. -/
def chunkAt (count : ℕ) (buffer : Array α) (k : ℕ) : Array α :=
  buffer.extract (k * count) (k * count + count)

lemma chunks?_eq_some {buffer : Array α} {count chunks : ℕ} (hpos : 0 < count)
    (hsize : buffer.size = chunks * count) :
    chunks? count buffer = some ((List.range chunks).map (chunkAt count buffer)) := by
  rw [chunks?, chunkStarts?_eq_some hpos hsize, Option.map_some, List.map_map]
  rfl

/-! ## Samples over the start of a buffer -/

lemma getElem?_overlay_of_lt {samples buffer : Array α} (hfit : samples.size ≤ buffer.size)
    {i : ℕ} (hi : i < samples.size) : (overlay samples buffer)[i]? = samples[i]? := by
  rw [getElem?_overlay, Array.getElem?_eq_getElem hi, Array.getElem?_eq_getElem (by omega)]
  rfl

lemma getElem?_overlay_of_le {samples buffer : Array α} {i : ℕ} (hi : samples.size ≤ i) :
    (overlay samples buffer)[i]? = buffer[i]? := by
  simp [getElem?_overlay, Array.getElem?_eq_none hi]

@[simp]
lemma overlay_empty (buffer : Array α) : overlay #[] buffer = buffer :=
  Array.ext_getElem? fun _ => getElem?_overlay_of_le (Nat.zero_le _)

/-- The start of a buffer after a write that fits is what was written. -/
lemma extract_overlay {samples buffer : Array α} {count : ℕ} (hcount : samples.size = count)
    (hfit : count ≤ buffer.size) : (overlay samples buffer).extract 0 count = samples := by
  subst hcount
  apply Array.ext_getElem?
  intro i
  by_cases hi : i < samples.size
  · rw [Array.getElem?_extract, if_pos (by rw [size_overlay]; omega), Nat.zero_add,
      getElem?_overlay_of_lt hfit hi]
  · rw [Array.getElem?_extract, if_neg (by omega), Array.getElem?_eq_none (by omega)]

/-- A write that fits is followed by what the buffer held there. -/
lemma overlay_eq_append {samples buffer : Array α} (hfit : samples.size ≤ buffer.size) :
    overlay samples buffer = samples ++ buffer.extract samples.size := by
  apply Array.ext_getElem?
  intro i
  by_cases hi : i < samples.size
  · rw [getElem?_overlay_of_lt hfit hi, Array.getElem?_append_left hi]
  · rw [getElem?_overlay_of_le (by omega), Array.getElem?_append_right (by omega),
      Array.getElem?_extract]
    split_ifs with hlt
    · rw [Nat.add_sub_cancel' (by omega)]
    · exact Array.getElem?_eq_none (by omega)

/-! ## Loops that write in place -/

/-- `buffer` is as long as `samples`, and holds its samples at the places in question. -/
structure AgreesAt (samples : Array α) (place : ℕ → Prop) (buffer : Array α) : Prop where
  size_eq : buffer.size = samples.size
  getElem?_eq : ∀ i, place i → buffer[i]? = samples[i]?

/-- On every buffer that is as long as `samples`, `step?` gives one that holds the samples at the
places in question, and wherever the buffer held them before. -/
def Fills (samples : Array α) (place : ℕ → Prop) (step? : Array α → Option (Array α)) : Prop :=
  ∀ ⦃settled buffer⦄, AgreesAt samples settled buffer →
    ∃ after, step? buffer = some after ∧ AgreesAt samples (fun i => settled i ∨ place i) after

namespace Fills

variable {samples : Array α}

/-- One store. -/
lemma write {k : ℕ} {value : α} (hvalue : samples[k]? = some value) :
    Fills samples (fun i => i = k) fun buffer => write? buffer k value := by
  intro settled buffer hbuffer
  have hk : k < buffer.size := by
    rw [hbuffer.size_eq]
    exact (Array.getElem?_eq_some_iff.1 hvalue).1
  refine ⟨buffer.set k value hk, dif_pos hk, by rw [Array.size_set, hbuffer.size_eq], ?_⟩
  intro i hi
  rw [Array.getElem?_set]
  split_ifs with hik
  · rw [← hik, hvalue]
  · exact hbuffer.getElem?_eq i (hi.resolve_right fun h => hik h.symm)

lemma bind {place place' : ℕ → Prop} {first? second? : Array α → Option (Array α)}
    (hfirst : Fills samples place first?) (hsecond : Fills samples place' second?) :
    Fills samples (fun i => place i ∨ place' i) fun buffer => first? buffer >>= second? := by
  intro settled buffer hbuffer
  obtain ⟨between, hrun, hbetween⟩ := hfirst hbuffer
  obtain ⟨after, hrun', hafter⟩ := hsecond hbetween
  refine ⟨after, ?_, hafter.size_eq, fun i hi => hafter.getElem?_eq i (or_assoc.2 hi)⟩
  calc
    first? buffer >>= second? = second? between := by rw [hrun]; rfl
    _ = some after := hrun'

lemma mono {place place' : ℕ → Prop} {step? : Array α → Option (Array α)}
    (h : Fills samples place step?) (hplace : ∀ i, place' i → place i) :
    Fills samples place' step? := by
  intro settled buffer hbuffer
  obtain ⟨after, hrun, hafter⟩ := h hbuffer
  exact ⟨after, hrun, hafter.size_eq, fun i hi =>
    hafter.getElem?_eq i (hi.imp_right (hplace i))⟩

/-- A loop gets to the places of all its rounds: what one round has written, the later ones
leave. -/
lemma foldlM_range {count : ℕ} {place : ℕ → ℕ → Prop} {step? : Array α → ℕ → Option (Array α)}
    (h : ∀ k < count, Fills samples (place k) fun buffer => step? buffer k) :
    Fills samples (fun i => ∃ k < count, place k i) fun buffer =>
      (List.range count).foldlM step? buffer := by
  induction count with
  | zero =>
    intro settled buffer hbuffer
    refine ⟨buffer, rfl, hbuffer.size_eq, fun i hi => hbuffer.getElem?_eq i ?_⟩
    simpa using hi
  | succ count ih =>
    have hlast : (fun buffer => (List.range (count + 1)).foldlM step? buffer) = fun buffer =>
        (List.range count).foldlM step? buffer >>= fun between => step? between count := by
      funext buffer
      simp [List.range_succ]
    rw [hlast]
    refine ((ih fun k hk => h k (by omega)).bind (h count (by omega))).mono fun i hi => ?_
    obtain ⟨k, hk, hi⟩ := hi
    obtain hk | rfl := Nat.lt_succ_iff_lt_or_eq.1 hk
    · exact .inl ⟨k, hk, hi⟩
    · exact .inr hi

/-- A loop that gets to every place leaves the samples, whatever was there before. -/
lemma eq_some {place : ℕ → Prop} {step? : Array α → Option (Array α)}
    (h : Fills samples place step?) (hplace : ∀ i < samples.size, place i) {buffer : Array α}
    (hsize : buffer.size = samples.size) : step? buffer = some samples := by
  have hstart : AgreesAt samples (fun _ => False) buffer := ⟨hsize, fun _ => False.elim⟩
  obtain ⟨after, hrun, hafter⟩ := h hstart
  rw [hrun]
  refine congrArg some (Array.ext_getElem? fun i => ?_)
  by_cases hi : i < samples.size
  · exact hafter.getElem?_eq i (.inr (hplace i hi))
  · have hsizes := hafter.size_eq
    rw [Array.getElem?_eq_none (by omega), Array.getElem?_eq_none (by omega)]

end Fills

end SignalCore.Buffer
