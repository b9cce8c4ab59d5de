import SignalCore.Loader.Basic
import SignalCore.Proofs.Bus.Frame
import SignalCore.Proofs.Bus.Memory
import SignalCore.Proofs.Image.Block

/-!
# Entries in memory

What an image asks for is stated one entry at a time: `place` writes the word of each entry at its
own address, in order, so that of two entries that overlap the later one wins.  The loader writes a
whole block in one piece, and `store_payload` says that this comes to the same.
-/

namespace SignalCore.Loader

open Bus.Simulated (Memory)
open Image (Entry IsBlock Consecutive)

/-- The memory with the words of entries written into it in order, each at its own address with
its most significant byte first. -/
def place (memory : Memory) (entries : List Entry) : Memory :=
  entries.foldl (fun memory entry => memory.store entry.address (Bus.bigEndian entry.data)) memory

lemma place_cons (memory : Memory) (entry : Entry) (rest : List Entry) :
    place memory (entry :: rest) =
      place (memory.store entry.address (Bus.bigEndian entry.data)) rest := rfl

lemma place_append (memory : Memory) (first second : List Entry) :
    place memory (first ++ second) = place (place memory first) second :=
  List.foldl_append

/-! ## Blocks -/

/-- The bytes that the words of a frame have on the bus. -/
def payload (frame : List Entry) : List UInt8 :=
  frame.flatMap fun entry => Bus.bigEndian entry.data

lemma payload_cons (entry : Entry) (rest : List Entry) :
    payload (entry :: rest) = Bus.bigEndian entry.data ++ payload rest := rfl

lemma payload_eq_flatMap (frame : List Entry) :
    payload frame = (frame.map (·.data)).flatMap Bus.bigEndian :=
  (List.flatMap_map ..).symm

@[simp]
lemma length_payload (frame : List Entry) : (payload frame).length = 4 * frame.length := by
  rw [payload_eq_flatMap, Bus.length_flatMap_bigEndian, List.length_map]

/-- The address of the first entry, which is the one that a frame is sent to. -/
def startAddress : List Entry → UInt32
  | [] => 0
  | first :: _ => first.address

lemma store_payload_of_consecutive (memory : Memory) {entries : List Entry}
    (hconsecutive : Consecutive entries) (hlength : 4 * entries.length < 2 ^ 32) :
    memory.store (startAddress entries) (payload entries) = place memory entries := by
  induction entries generalizing memory with
  | nil => exact Memory.store_nil _ _
  | cons first rest ih =>
    rw [List.length_cons] at hlength
    have hsplit : memory.store first.address (payload (first :: rest)) =
        (memory.store first.address (Bus.bigEndian first.data)).store (first.address + 4)
          (payload rest) := by
      rw [payload_cons, Memory.store_append]
      · rfl
      · rw [Bus.length_bigEndian, length_payload]
        omega
    rw [startAddress, hsplit, place_cons]
    cases rest with
    | nil => exact Memory.store_nil _ _
    | cons second rest =>
      obtain ⟨hnext, hrest⟩ := Image.consecutive_cons_cons.1 hconsecutive
      rw [← hnext]
      exact ih _ hrest (by omega)

/-- A block written in one piece from its first address on leaves the memory that its entries
written one by one leave. -/
theorem store_payload (memory : Memory) {block : List Entry} (h : IsBlock block) :
    memory.store (startAddress block) (payload block) = place memory block := by
  have hlength : block.length ≤ 256 := h.length_le
  exact store_payload_of_consecutive memory h.consecutive (by omega)

end SignalCore.Loader
