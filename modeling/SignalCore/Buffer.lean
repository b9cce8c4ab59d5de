/-!
# Sample buffers

A buffer is an array that a kernel fills from its start.  `overlay` writes samples over the start
of a buffer and keeps the rest, `slice?` takes a window that has to lie inside the buffer,
`tabulate?` computes a run of samples of which each may fail, and `write?` is the single store of a
loop that works in place.  `chunks?` cuts a buffer into windows of equal length.

The main statements are `size_overlay` (a write never changes the length of a buffer) and
`getElem?_overlay` (a write is seen exactly where it was made).
-/

namespace SignalCore.Buffer

variable {α : Type}

/-- Write `samples` over the start of `buffer`; samples that do not fit are dropped, and the
rest of the buffer is kept. -/
def overlay (samples buffer : Array α) : Array α :=
  buffer.mapIdx fun i old => samples[i]?.getD old

@[simp]
theorem size_overlay (samples buffer : Array α) : (overlay samples buffer).size = buffer.size := by
  simp [overlay]

theorem getElem?_overlay (samples buffer : Array α) (i : Nat) :
    (overlay samples buffer)[i]? = buffer[i]?.map (samples[i]?.getD ·) := by
  simp [overlay]

/-- The `count` samples from `start` on, if the buffer holds them all. -/
def slice? (buffer : Array α) (start count : Nat) : Option (Array α) :=
  if start + count ≤ buffer.size then some (buffer.extract start (start + count)) else none

/-- The values of `sample?` at `start`, `start + 1`, …, `start + count - 1`, or `none` if one of
them is missing. -/
def tabulate? (start count : Nat) (sample? : Nat → Option α) : Option (List α) :=
  (List.range' start count).mapM sample?

/-- The buffer with every sample replaced by `value`. -/
def fill (value : α) (buffer : Array α) : Array α :=
  Array.replicate buffer.size value

/-- The buffer with `value` at position `i`, if it has such a position. -/
def write? (buffer : Array α) (i : Nat) (value : α) : Option (Array α) :=
  if h : i < buffer.size then some (buffer.set i value h) else none

/-- Where the chunks of `count` samples start in a buffer of `size` samples.  A rest that is too
short for a chunk is left out, and there are no chunks of nothing. -/
def chunkStarts? (count size : Nat) : Option (List Nat) :=
  if count = 0 then none else some ((List.range (size / count)).map (· * count))

/-- The chunks of `count` samples that a buffer is cut into. -/
def chunks? (count : Nat) (buffer : Array α) : Option (List (Array α)) :=
  (chunkStarts? count buffer.size).map
    (List.map fun start => buffer.extract start (start + count))

end SignalCore.Buffer
