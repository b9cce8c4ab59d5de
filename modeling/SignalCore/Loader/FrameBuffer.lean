import SignalCore.Bus.Frame

/-!
# Frame buffers

The loader builds every frame in a buffer that holds the longest one, and receives answers in
another.  Operations write over the start of a buffer and leave the rest as it was, so a buffer
keeps its length and carries bytes of earlier frames behind those of the present one.
-/

namespace SignalCore.Loader

/-- The `count` items from `start` on, if there are so many. -/
def slice? {α : Type} (items : List α) (start count : Nat) : Option (List α) :=
  if start + count ≤ items.length then some ((items.drop start).take count) else none

/-- Room for one frame. -/
structure FrameBuffer where
  bytes : List UInt8
  length_eq : bytes.length = Bus.frameLength

namespace FrameBuffer

/-- A buffer of zeros. -/
def zeros : FrameBuffer :=
  ⟨List.replicate Bus.frameLength 0, List.length_replicate⟩

/-- Write bytes over the start of a buffer; bytes that do not fit are dropped. -/
def overlay (buffer : FrameBuffer) (bytes : List UInt8) : FrameBuffer where
  bytes := bytes.take Bus.frameLength ++ buffer.bytes.drop bytes.length
  length_eq := by
    simp only [List.length_append, List.length_take, List.length_drop, buffer.length_eq]
    omega

/-- The first `count` bytes, if the buffer holds them. -/
def take? (buffer : FrameBuffer) (count : Nat) : Option (List UInt8) :=
  slice? buffer.bytes 0 count

end FrameBuffer

end SignalCore.Loader
