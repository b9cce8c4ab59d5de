import SignalCore.Proofs.Loader.Boot
import SignalCore.Proofs.Loader.Verification

/-!
# Loading an honest device

On a device that stores what it is sent, answers truthfully and fails nothing, the loader has no
false alarms: `FrameRun.of_honest` says of one frame that it ends well and leaves the words of its
block in memory, and `honest_load_and_boot` says it of whole loads and boots.

The invariant of a load is that the memory is what it was with the blocks so far placed in order.
It is exact, so it does not matter how the next block lies to them.
-/

namespace SignalCore.Loader

open Bus (writes)
open Image (Entry IsBlock)

variable {δ : Type} {device : Bus.Device δ} {states : Set δ} {memory : δ → Bus.Simulated.Memory}
  {state : δ} {readback : Bool}

/-! ## Frames -/

/-- A block that is written to an honest device is placed in its memory. -/
lemma memory_of_writeOperation (hdevice : Bus.Honest device states memory) {block : List Entry}
    (hblock : IsBlock block) (hstate : state ∈ states) {reply : Except Bus.Fault Unit} {after : δ}
    (hwrite : device.respond (writeOperation block) state = (reply, after)) :
    memory after = place (memory state) block := by
  rw [hdevice.memory_of_write hstate hwrite, store_payload _ hblock]

/-- A block is short enough that none of its bytes is written over by a later one, so what is
fetched after it was placed is what was sent. -/
lemma fetch_place {memory : Bus.Simulated.Memory} {block : List Entry} (hblock : IsBlock block) :
    (place memory block).fetch (startAddress block) (payload block).length = payload block := by
  have hlength : block.length ≤ 256 := hblock.length_le
  rw [← store_payload _ hblock]
  apply Bus.Simulated.Memory.fetch_store
  rw [length_payload]
  omega

/-- The run of a frame on an honest device: it ends well and the block is in memory. -/
theorem FrameRun.of_honest (hdevice : Bus.Honest device states memory) {block : List Entry}
    (hblock : IsBlock block) (hstate : state ∈ states) {run : Bus.Run (Except Halt Unit) δ}
    (h : FrameRun device readback block state run) :
    run.value = .ok () ∧ run.device ∈ states ∧
      memory run.device = place (memory state) block := by
  cases h with
  | writeFailed hwrite => exact (hdevice.not_failed hstate hwrite).elim
  | unread _ hwrite =>
    exact ⟨rfl, hdevice.mem_of_respond hstate hwrite,
      memory_of_writeOperation hdevice hblock hstate hwrite⟩
  | readFailed _ hwrite hread =>
    exact (hdevice.not_failed (hdevice.mem_of_respond hstate hwrite) hread).elim
  | matched _ hwrite hread =>
    have hmiddle := hdevice.mem_of_respond hstate hwrite
    refine ⟨rfl, hdevice.mem_of_respond hmiddle hread, ?_⟩
    rw [(receivedData_eq_fetch hdevice.toTruthful hmiddle hread).2]
    exact memory_of_writeOperation hdevice hblock hstate hwrite
  | mismatched _ hwrite hread hdata =>
    have hmiddle := hdevice.mem_of_respond hstate hwrite
    have hreceived := (receivedData_eq_fetch hdevice.toTruthful hmiddle hread).1
    rw [memory_of_writeOperation hdevice hblock hstate hwrite, fetch_place hblock] at hreceived
    exact (hdata hreceived).elim

/-! ## Loads -/

/-- Blocks that are sent to an honest device are written once each and are in memory in order. -/
theorem LoadRun.of_honest (hdevice : Bus.Honest device states memory)
    {blocks : List (List Entry)} (hblocks : ∀ block ∈ blocks, IsBlock block)
    (hstate : state ∈ states) {run : Bus.Run (Except Halt Unit) δ}
    (h : LoadRun device readback blocks state run) :
    run.value = .ok () ∧ writes run.events = blocks.map writeRequest ∧ run.device ∈ states ∧
      memory run.device = place (memory state) blocks.flatten := by
  have hplaced : run.value = .ok () ∧ run.device ∈ states ∧
      memory run.device = place (memory state) blocks.flatten := by
    induction h with
    | finished => exact ⟨rfl, hstate, rfl⟩
    | failed hframe herror =>
      obtain ⟨hblock, -⟩ := List.forall_mem_cons.1 hblocks
      rw [(hframe.of_honest hdevice hblock hstate).1] at herror
      cases herror
    | passed hframe _ _ ih =>
      obtain ⟨hblock, hrest⟩ := List.forall_mem_cons.1 hblocks
      obtain ⟨-, hnext, hmemory⟩ := hframe.of_honest hdevice hblock hstate
      obtain ⟨hvalue, hlast, hmemories⟩ := ih hrest hnext
      refine ⟨hvalue, hlast, ?_⟩
      rw [hmemories, hmemory, List.flatten_cons, place_append]
  exact ⟨hplaced.1, h.writes_of_ok hplaced.1, hplaced.2⟩

/-- The blocks of some entries leave the entries in memory. -/
lemma LoadRun.of_honest_blocks (hdevice : Bus.Honest device states memory) {entries : List Entry}
    (hstate : state ∈ states) {run : Bus.Run (Except Halt Unit) δ}
    (h : LoadRun device readback (Image.blocks entries) state run) :
    run.value = .ok () ∧ writes run.events = (Image.blocks entries).map writeRequest ∧
      run.device ∈ states ∧ memory run.device = place (memory state) entries := by
  have hrun := h.of_honest hdevice (fun _ => Image.isBlock_of_mem_blocks) hstate
  rwa [Image.flatten_blocks] at hrun

/-! ## Resets and starts -/

lemma ResetRun.of_honest (hdevice : Bus.Honest device states memory) (hstate : state ∈ states)
    {run : Bus.Run (Except Halt Unit) δ} (h : ResetRun device state run) :
    run.value = .ok () ∧ run.device ∈ states ∧ memory run.device = memory state := by
  cases h with
  | stopFailed hstop => exact (hdevice.not_failed hstate hstop).elim
  | holdFailed hstop hhold =>
    exact (hdevice.not_failed (hdevice.mem_of_respond hstate hstop) hhold).elim
  | releaseFailed hstop hhold hrelease =>
    have hstopped := hdevice.mem_of_respond hstate hstop
    exact (hdevice.not_failed (hdevice.mem_of_respond hstopped hhold) hrelease).elim
  | done hstop hhold hrelease =>
    have hstopped := hdevice.mem_of_respond hstate hstop
    have hheld := hdevice.mem_of_respond hstopped hhold
    refine ⟨rfl, hdevice.mem_of_respond hheld hrelease, ?_⟩
    rw [hdevice.memory_of_drive hheld hrelease, hdevice.memory_of_drive hstopped hhold,
      hdevice.memory_of_drive hstate hstop]

lemma StartRun.of_honest (hdevice : Bus.Honest device states memory) (hstate : state ∈ states)
    {run : Bus.Run (Except Halt Unit) δ} (h : StartRun device state run) :
    run.value = .ok () ∧ memory run.device = memory state := by
  cases h with
  | failed hstart => exact (hdevice.not_failed hstate hstart).elim
  | done hstart => exact ⟨rfl, hdevice.memory_of_drive hstate hstart⟩

/-- A boot of an honest device ends well and leaves the entries in memory. -/
theorem BootRun.of_honest (hdevice : Bus.Honest device states memory) (hstate : state ∈ states)
    {count : ℕ} {entries : List Entry} {run : Bus.Run (Except Halt Unit) δ}
    (h : BootRun device readback count entries state run) :
    run.value = .ok () ∧ memory run.device = place (memory state) entries := by
  cases h with
  | notReset hreset herror =>
    rw [(hreset.of_honest hdevice hstate).1] at herror
    cases herror
  | notLoaded hreset hready hload herror =>
    obtain ⟨-, hready', -⟩ := hreset.of_honest hdevice hstate
    rw [(hload.of_honest_blocks hdevice hready').1] at herror
    cases herror
  | loaded hreset _ hload _ hstart =>
    obtain ⟨-, hready', hkept⟩ := hreset.of_honest hdevice hstate
    obtain ⟨-, -, hlast, hmemory⟩ := hload.of_honest_blocks hdevice hready'
    obtain ⟨hvalue, hstarted⟩ := hstart.of_honest hdevice hlast
    refine ⟨hvalue, ?_⟩
    rw [hstarted, hmemory, hkept]

/-- **On an honest device nothing goes wrong.**  From any state of such a device, a load of any
entries, with readback or without, gives the number of its blocks, writes one frame for each of
them, and leaves the memory that it found with the word of each entry written at its own address, in
order.  A boot from any image that can be read ends well and leaves the memory with the entries of
the image. -/
theorem honest_load_and_boot (hdevice : Bus.Honest device states memory) (loader : Loader)
    (state : δ) (hstate : state ∈ states) :
    (∀ entries : List Entry,
      let run := (load entries).play loader device state
      run.value = .ok (Image.blocks entries).length ∧
        writes run.events = (Image.blocks entries).map writeRequest ∧
        memory run.device = place (memory state) entries) ∧
    ∀ (image : String) (slots : List Entry) (count : ℕ),
      (Image.scan image slots).result = .ok count →
      let run := (boot image slots).2.play loader device state
      run.value = .ok () ∧
        memory run.device =
          place (memory state) ((Image.scan image slots).slots.take count) := by
  constructor
  · intro entries
    have hrun := loadRun_play device loader.readback (Image.blocks entries) state
    obtain ⟨hvalue, hwrites, -, hmemory⟩ := hrun.of_honest_blocks hdevice hstate
    rw [(follows_load entries).play_eq, play_load]
    refine ⟨?_, hwrites, hmemory⟩
    dsimp only
    rw [hvalue]
    rfl
  · intro image slots count hscan
    have hrun := bootRun_play device loader.readback count
      ((Image.scan image slots).slots.take count) state
    rw [play_boot_of_ok hscan]
    exact hrun.of_honest hdevice hstate

/-- A load of three words in two blocks, of which the first runs over the end of the addresses and
the second lies across it, and a boot with two words that overlap. -/
theorem honest_load_and_boot_of_overlap :
    let state : Bus.Simulated.State := {}
    let entries : List Entry :=
      [⟨0xFFFFFFFE, 0xFEFF0001⟩, ⟨0x00000002, 0x02030405⟩, ⟨0x00000001, 0x01020304⟩]
    let image := "00000010_01020304\n\n00000012_05060708\n"
    let slots : List Entry := List.replicate 3 ⟨0, 0⟩
    ((load entries).play .new Bus.simulated state).device.memory =
        place state.memory entries ∧
      ((boot image slots).2.play .new Bus.simulated state).device.memory =
        place state.memory [⟨0x10, 0x01020304⟩, ⟨0x12, 0x05060708⟩] := by
  intro state entries image slots
  have hstate : state.settings.Honest := ⟨⟨rfl, rfl⟩, rfl, rfl, rfl⟩
  have hscan : (Image.scan image slots).result = .ok 2 := by decide +kernel
  have hentries : (Image.scan image slots).slots.take 2 =
      [⟨0x10, 0x01020304⟩, ⟨0x12, 0x05060708⟩] := by decide +kernel
  obtain ⟨hload, hboot⟩ :=
    honest_load_and_boot Bus.Simulated.honest_simulated .new state hstate
  refine ⟨(hload entries).2.2, ?_⟩
  rw [(hboot image slots 2 hscan).2, hentries]

end SignalCore.Loader
