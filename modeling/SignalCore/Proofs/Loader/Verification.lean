import SignalCore.Proofs.Bus.Device
import SignalCore.Proofs.Loader.Play

/-!
# What a verified load guarantees

A device may store, drop or garble what is written to it.  If it answers reads truthfully and its
writes stay within their own addresses, reading back makes up for that: a frame that is read back
as it was written is in memory as it was written (`FrameRun.memory_eq_of_ok`), and a load that
reports success has put every word of its image in place (`load_ok_memory_eq_place`).

Each frame is compared before the next is written, so frames that overlap do no harm: what the
invariant says of the memory is exact, byte by byte, at the end of every frame.
-/

namespace SignalCore.Loader

open Image (Entry IsBlock)

variable {δ : Type} {device : Bus.Device δ} {states : Set δ}
  {memory : δ → Bus.Simulated.Memory}

/-- What comes back from a truthful device is what its memory holds. -/
theorem receivedData_eq_fetch (hdevice : Bus.Truthful device states memory) {state after : δ}
    (hstate : state ∈ states) {block : List Entry} {answer : Bus.Received (answerLength block)}
    (hread : device.respond (readOperation block) state = (.ok answer, after)) :
    receivedData block answer.val =
        (memory state).fetch (startAddress block) (payload block).length ∧
      memory after = memory state := by
  have hcount : Bus.payloadOffset + 1 ≤ answerLength block := by
    rw [answerLength]
    omega
  obtain ⟨hanswer, hkept⟩ := hdevice.read state hstate _ _ _ answer after hcount hread
  exact ⟨hanswer.data_eq answer.property, hkept⟩

/-- A frame that was read back as it was written is in memory as it was written, and nothing else
has changed. -/
theorem FrameRun.memory_eq_of_ok (hdevice : Bus.ConfinedWrites device states memory)
    {block : List Entry} (hblock : IsBlock block) {state : δ} (hstate : state ∈ states)
    {run : Bus.Run (Except Halt Unit) δ} (h : FrameRun device true block state run)
    (hok : run.value = .ok ()) :
    run.device ∈ states ∧ memory run.device = place (memory state) block := by
  cases h with
  | writeFailed | readFailed | mismatched => cases hok
  | unread hoff => cases hoff
  | matched _ hwrite hread hdata =>
    have hmiddle := hdevice.mem_of_respond hstate hwrite
    obtain ⟨hreceived, hkept⟩ := receivedData_eq_fetch hdevice.toTruthful hmiddle hread
    refine ⟨hdevice.mem_of_respond hmiddle hread, ?_⟩
    -- the data that came back are what memory holds, and they are the data that were sent
    rw [hkept, ← store_payload _ hblock]
    exact Bus.Simulated.Memory.eq_store_of_fetch (hreceived.symm.trans hdata)
      (hdevice.write state hstate _ _ _ hwrite)

/-- Blocks that were all read back as they were written are in memory in order. -/
theorem LoadRun.memory_eq_of_ok (hdevice : Bus.ConfinedWrites device states memory)
    {blocks : List (List Entry)} (hblocks : ∀ block ∈ blocks, IsBlock block) {state : δ}
    (hstate : state ∈ states) {run : Bus.Run (Except Halt Unit) δ}
    (h : LoadRun device true blocks state run) (hok : run.value = .ok ()) :
    memory run.device = place (memory state) blocks.flatten := by
  induction h with
  | finished => rfl
  | failed _ herror =>
    rw [hok] at herror
    cases herror
  | passed hframe hready _ ih =>
    obtain ⟨hblock, hrest⟩ := List.forall_mem_cons.1 hblocks
    obtain ⟨hnext, hmemory⟩ := hframe.memory_eq_of_ok hdevice hblock hstate hready
    rw [List.flatten_cons, place_append, ← hmemory]
    exact ih hrest hnext hok

/-- **A verified load is a correct load.**  On a device whose writes are confined to their own
addresses and otherwise do what they like, and which answers reads truthfully and one bit late, a
load with readback that reports success leaves the memory that it found with the word of each entry
written at its own address, in order, and nothing else changed. -/
theorem load_ok_memory_eq_place (hdevice : Bus.ConfinedWrites device states memory)
    (loader : Loader) (hreadback : loader.readback = true) (entries : List Entry) (state : δ)
    (hstate : state ∈ states) (count : ℕ)
    (hok : ((load entries).play loader device state).value = .ok count) :
    memory ((load entries).play loader device state).device =
      place (memory state) entries := by
  have hplay : (load entries).play loader device state = _ :=
    (follows_load entries).play_eq device state
  rw [hreadback, play_load] at hplay
  simp only [hplay] at hok ⊢
  cases hframes : ((Protocol.frames true (Image.blocks entries)).play device state).value with
  | error halt =>
    rw [hframes] at hok
    cases hok
  | ok value =>
    have hmemory := (loadRun_play device true (Image.blocks entries) state).memory_eq_of_ok hdevice
      (fun _ => Image.isBlock_of_mem_blocks) hstate hframes
    rwa [Image.flatten_blocks] at hmemory

/-- The device loses every write, but its memory happens to hold the image: three words in two
blocks, of which the first runs over the end of the addresses and the second lies across it. -/
theorem load_ok_memory_eq_place_of_lost_writes :
    let entries : List Entry :=
      [⟨0xFFFFFFFE, 0xFEFF0001⟩, ⟨0x00000002, 0x02030405⟩, ⟨0x00000001, 0x01020304⟩]
    let state : Bus.Simulated.State :=
      { settings := { dropWrites := true }, memory := UInt32.toUInt8 }
    ((load entries).play .new Bus.simulated state).value = .ok 2 ∧
      ((load entries).play .new Bus.simulated state).device.memory =
        place UInt32.toUInt8 entries := by
  intro entries state
  have hok : ((load entries).play .new Bus.simulated state).value = .ok 2 := by decide +kernel
  exact ⟨hok, load_ok_memory_eq_place Bus.Simulated.confinedWrites_simulated .new rfl entries state
    ⟨rfl, rfl⟩ 2 hok⟩

end SignalCore.Loader
