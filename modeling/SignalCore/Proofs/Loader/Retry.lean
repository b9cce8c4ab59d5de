import SignalCore.Proofs.Loader.Honest
import Mathlib.Data.Set.Function

/-!
# Loads that are tried again

A load may break off at any frame, and a frame may be dropped or garbled, but on a `Contained`
device nothing outside the footprint of the entries is touched on the way: `FrameRun.eqOn` says so
of a frame, however it ends, `LoadRun.eqOn` of the frames up to the one that failed, and
`Attempts.eqOn` of any number of loads in a row.

Placing entries writes the whole of their footprint.  What it leaves there depends on the entries
alone, so that it does not matter what was there before (`place_congr`).  So a load of an honest
device may be made again (`load_idempotent`), and one that goes well makes up for all that came
before it (`load_after_attempts`).
-/

namespace SignalCore.Loader

open Bus.Simulated (Memory)
open Image (Entry IsBlock Consecutive)

/-! ## Footprints -/

/-- The addresses that the words of entries take up. -/
def footprint (entries : List Entry) : Set UInt32 :=
  { a | ∃ entry ∈ entries, (a - entry.address).toNat < 4 }

lemma footprint_cons (entry : Entry) (rest : List Entry) :
    footprint (entry :: rest) = { a | (a - entry.address).toNat < 4 } ∪ footprint rest := by
  ext a
  simp [footprint]

lemma footprint_append (first second : List Entry) :
    footprint (first ++ second) = footprint first ∪ footprint second := by
  ext a
  simp [footprint, or_and_right, exists_or]

/-- Memories that agree outside the footprint of entries are the same with the entries placed. -/
theorem place_congr {entries : List Entry} {memory memory' : Memory}
    (h : Set.EqOn memory memory' (footprint entries)ᶜ) :
    place memory entries = place memory' entries := by
  induction entries generalizing memory memory' with
  | nil =>
    funext a
    exact h (by simp [footprint])
  | cons entry rest ih =>
    rw [place_cons, place_cons]
    refine ih fun a ha => ?_
    by_cases hword : (a - entry.address).toNat < 4
    · rw [Memory.store_apply, Memory.store_apply,
        List.getElem?_eq_getElem (by rwa [Bus.length_bigEndian])]
      rfl
    · have hle : (Bus.bigEndian entry.data).length ≤ (a - entry.address).toNat :=
        Nat.le_of_not_lt hword
      rw [Memory.store_apply_of_le _ hle, Memory.store_apply_of_le _ hle]
      refine h ?_
      rw [footprint_cons]
      exact not_or.2 ⟨hword, ha⟩

lemma mem_footprint_of_consecutive {entries : List Entry} (hconsecutive : Consecutive entries)
    (hlength : 4 * entries.length < 2 ^ 32) {a : UInt32}
    (ha : (a - startAddress entries).toNat < 4 * entries.length) : a ∈ footprint entries := by
  induction entries with
  | nil => exact (Nat.not_lt_zero _ ha).elim
  | cons first rest ih =>
    rw [footprint_cons]
    by_cases hword : (a - first.address).toNat < 4
    · exact .inl hword
    · right
      cases rest with
      | nil => exact (hword ha).elim
      | cons second rest =>
        obtain ⟨hnext, hrest⟩ := Image.consecutive_cons_cons.1 hconsecutive
        have hfurther : (a - second.address).toNat = (a - first.address).toNat - 4 := by
          rw [hnext]
          exact (Memory.offset_further first.address a (by decide)).trans
            (if_pos (Nat.le_of_not_lt hword))
        rw [startAddress, List.length_cons] at ha
        rw [List.length_cons] at hlength
        refine ih hrest (by omega) ?_
        rw [startAddress, hfurther]
        omega

/-- The bytes of a block go to the addresses of its words. -/
lemma length_payload_le_of_notMem {block : List Entry} (hblock : IsBlock block) {a : UInt32}
    (ha : a ∉ footprint block) : (payload block).length ≤ (a - startAddress block).toNat := by
  have hlength : block.length ≤ 256 := hblock.length_le
  rw [length_payload]
  by_contra hlt
  exact ha (mem_footprint_of_consecutive hblock.consecutive (by omega) (by omega))

/-! ## What a run can have changed -/

section Contained

variable {δ : Type} {device : Bus.Device δ} {states : Set δ} {memory : δ → Memory} {state : δ}
  {readback : Bool}

lemma eqOn_of_write (hdevice : Bus.Contained device states memory) {block : List Entry}
    (hblock : IsBlock block) (hstate : state ∈ states) {reply : Except Bus.Fault Unit} {after : δ}
    (hwrite : device.respond (writeOperation block) state = (reply, after)) :
    Set.EqOn (memory after) (memory state) (footprint block)ᶜ := by
  intro a ha
  exact hdevice.apply_of_write hstate hwrite (length_payload_le_of_notMem hblock ha)

lemma memory_of_readOperation (hdevice : Bus.Contained device states memory) {block : List Entry}
    (hstate : state ∈ states) {reply : Except Bus.Fault (Bus.Received (answerLength block))}
    {after : δ}
    (hread : device.respond (readOperation block) state = (reply, after)) :
    memory after = memory state := by
  refine hdevice.memory_of_read hstate ?_ hread
  rw [answerLength]
  omega

/-- However the run of a frame ends, the memory is as it was outside the footprint of its block. -/
theorem FrameRun.eqOn (hdevice : Bus.Contained device states memory) {block : List Entry}
    (hblock : IsBlock block) (hstate : state ∈ states) {run : Bus.Run (Except Halt Unit) δ}
    (h : FrameRun device readback block state run) :
    run.device ∈ states ∧ Set.EqOn (memory run.device) (memory state) (footprint block)ᶜ := by
  cases h with
  | writeFailed hwrite | unread _ hwrite =>
    exact ⟨hdevice.mem_of_respond hstate hwrite, eqOn_of_write hdevice hblock hstate hwrite⟩
  | readFailed _ hwrite hread | matched _ hwrite hread | mismatched _ hwrite hread =>
    have hmiddle := hdevice.mem_of_respond hstate hwrite
    refine ⟨hdevice.mem_of_respond hmiddle hread, ?_⟩
    rw [memory_of_readOperation hdevice hmiddle hread]
    exact eqOn_of_write hdevice hblock hstate hwrite

/-- Frames, up to the one that fails if one does, leave the memory as it was outside the footprint
of their blocks. -/
theorem LoadRun.eqOn (hdevice : Bus.Contained device states memory) {blocks : List (List Entry)}
    (hblocks : ∀ block ∈ blocks, IsBlock block) (hstate : state ∈ states)
    {run : Bus.Run (Except Halt Unit) δ} (h : LoadRun device readback blocks state run) :
    Set.EqOn (memory run.device) (memory state) (footprint blocks.flatten)ᶜ := by
  induction h with
  | finished => exact Set.eqOn_refl _ _
  | failed hframe _ =>
    obtain ⟨hblock, -⟩ := List.forall_mem_cons.1 hblocks
    rw [List.flatten_cons, footprint_append, Set.compl_union]
    exact (hframe.eqOn hdevice hblock hstate).2.mono Set.inter_subset_left
  | passed hframe _ _ ih =>
    obtain ⟨hblock, hrest⟩ := List.forall_mem_cons.1 hblocks
    obtain ⟨hnext, hhead⟩ := hframe.eqOn hdevice hblock hstate
    rw [List.flatten_cons, footprint_append, Set.compl_union]
    exact ((ih hrest hnext).mono Set.inter_subset_right).trans (hhead.mono Set.inter_subset_left)

lemma eqOn_load (hdevice : Bus.Contained device states memory) (loader : Loader)
    (entries : List Entry) (hstate : state ∈ states) :
    Set.EqOn (memory ((load entries).play loader device state).device) (memory state)
      (footprint entries)ᶜ := by
  rw [(follows_load entries).play_eq, play_load]
  have hrun := (loadRun_play device loader.readback (Image.blocks entries) state).eqOn hdevice
    (fun _ => Image.isBlock_of_mem_blocks) hstate
  rwa [Image.flatten_blocks] at hrun

end Contained

/-! ## Loading an honest device again -/

section Honest

variable {δ : Type} {device : Bus.Device δ} {states : Set δ} {memory : δ → Memory} {state : δ}

/-- On an honest device a load places its entries, whatever the loader. -/
lemma load_of_honest (hdevice : Bus.Honest device states memory) (loader : Loader)
    (entries : List Entry) (hstate : state ∈ states) :
    let run := (load entries).play loader device state
    run.value = .ok (Image.blocks entries).length ∧ run.device ∈ states ∧
      memory run.device = place (memory state) entries := by
  rw [(follows_load entries).play_eq, play_load]
  have hrun := loadRun_play device loader.readback (Image.blocks entries) state
  obtain ⟨hvalue, -, hlast, hmemory⟩ := hrun.of_honest_blocks hdevice hstate
  refine ⟨?_, hlast, hmemory⟩
  dsimp only
  rw [hvalue]
  rfl

/-- Loading twice is loading once. -/
theorem load_idempotent (hdevice : Bus.Honest device states memory) (loader loader' : Loader)
    (entries : List Entry) (hstate : state ∈ states) :
    let once := (load entries).play loader device state
    let twice := (load entries).play loader' device once.device
    twice.value = once.value ∧ memory twice.device = memory once.device := by
  intro once twice
  obtain ⟨hvalue, hready, honce⟩ := load_of_honest hdevice loader entries hstate
  obtain ⟨hvalue', -, htwice⟩ := load_of_honest hdevice loader' entries hready
  refine ⟨hvalue'.trans hvalue.symm, ?_⟩
  rw [htwice, place_congr (eqOn_load hdevice.contained loader entries hstate), honce]

end Honest

/-! ## Attempts -/

/-- The memories that loads of the same entries, one after the other, can make of an initial one.
Between two attempts everything but the memory may change: the loader, what is set about the device,
even the device itself.  An attempt may end in any way. -/
inductive Attempts (entries : List Entry) (initial : Memory) : Memory → Prop
  | none : Attempts entries initial initial
  | again {δ : Type} {device : Bus.Device δ} {states : Set δ} {memory : δ → Memory} {state : δ}
      (hdevice : Bus.Contained device states memory) (hstate : state ∈ states) (loader : Loader)
      (hbefore : Attempts entries initial (memory state)) :
      Attempts entries initial (memory ((load entries).play loader device state).device)

lemma Attempts.eqOn {entries : List Entry} {initial memory : Memory}
    (h : Attempts entries initial memory) : Set.EqOn memory initial (footprint entries)ᶜ := by
  induction h with
  | none => exact Set.eqOn_refl _ _
  | again hdevice hstate loader _ ih => exact (eqOn_load hdevice loader entries hstate).trans ih

/-- **A load that goes well makes up for those that did not.**  After attempts to load some entries,
as many as one likes, on devices that change nothing outside the frames that they are sent, each
ended by a fault, by a readback that does not match, by success or in any other way, a load of the
same entries on an honest device gives the number of blocks.  It leaves the entries placed in the
initial memory, as a single load on a device with the initial memory does. -/
theorem load_after_attempts {δ : Type} {device : Bus.Device δ} {states : Set δ}
    {memory : δ → Memory} (hdevice : Bus.Honest device states memory) (loader : Loader)
    (entries : List Entry) (initial : Memory) (state : δ) (hstate : state ∈ states)
    (hattempts : Attempts entries initial (memory state)) :
    let run := (load entries).play loader device state
    run.value = .ok (Image.blocks entries).length ∧
      memory run.device = place initial entries ∧
      ∀ (loader' : Loader) (fresh : δ), fresh ∈ states → memory fresh = initial →
        memory run.device = memory ((load entries).play loader' device fresh).device := by
  intro run
  obtain ⟨hvalue, -, hmemory⟩ := load_of_honest hdevice loader entries hstate
  rw [place_congr hattempts.eqOn] at hmemory
  refine ⟨hvalue, hmemory, ?_⟩
  intro loader' fresh hfresh hinitial
  rw [hmemory, (load_of_honest hdevice loader' entries hfresh).2.2, hinitial]

/-- Two words that overlap.  The first attempt fails at the write of the second word, and the next
reads the first word back wrong, so that only the first word has been written when the load that
goes well begins. -/
theorem load_after_attempts_of_overlap :
    let entries : List Entry := [⟨0x10, 0x01020304⟩, ⟨0x12, 0x05060708⟩]
    let failing : Bus.Simulated.State := { settings := { busFaults := [2] } }
    let first := (load entries).play .new Bus.simulated failing
    let garbling : Bus.Simulated.State :=
      { settings := { corruptions := [(1, 0x40)] }, memory := first.device.memory }
    let second := (load entries).play .new Bus.simulated garbling
    let honest : Bus.Simulated.State := { memory := second.device.memory }
    let last := (load entries).play .new Bus.simulated honest
    first.value = .error (.error (.bus Bus.Simulated.busFault)) ∧
      second.value = .error (.error (.verify ⟨0x10, 1, 0x02, 0x42⟩)) ∧
      last.value = .ok 2 ∧
      last.device.memory = place failing.memory entries ∧
      last.device.memory = ((load entries).play .new Bus.simulated {}).device.memory := by
  intro entries failing first garbling second honest last
  have hfirst : Attempts entries failing.memory first.device.memory :=
    .again Bus.Simulated.contained_simulated (Set.mem_univ failing) .new .none
  have hsecond : Attempts entries failing.memory second.device.memory :=
    .again Bus.Simulated.contained_simulated (Set.mem_univ garbling) .new hfirst
  have hhonest : honest.settings.Honest := ⟨⟨rfl, rfl⟩, rfl, rfl, rfl⟩
  have hblocks : (Image.blocks entries).length = 2 := by decide +kernel
  obtain ⟨hvalue, hmemory, hfresh⟩ := load_after_attempts Bus.Simulated.honest_simulated .new
    entries failing.memory honest hhonest hsecond
  rw [hblocks] at hvalue
  exact ⟨by decide +kernel, by decide +kernel, hvalue, hmemory,
    hfresh .new {} ⟨⟨rfl, rfl⟩, rfl, rfl, rfl⟩ rfl⟩

end SignalCore.Loader
