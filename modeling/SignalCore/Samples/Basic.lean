import SignalCore.Buffer
import SignalCore.Outcome

/-!
# Sample-wise operations

An operation that turns each sample into one sample writes its results over the start of the
destination.  A destination that is too short is reported before anything is written, and samples
after the results are kept.
-/

namespace SignalCore.Samples

variable {α β : Type}

/-- Write `results` over the start of `destination` if they fit. -/
def store (results destination : Array α) : Outcome Empty (Array α) :=
  if results.size ≤ destination.size then .done (Buffer.overlay results destination)
  else .outOfBounds destination

/-- Write `f` of each sample of `source` over the start of `destination`. -/
def mapInto (f : α → β) (source : Array α) (destination : Array β) : Outcome Empty (Array β) :=
  store (source.map f) destination

/-- Set every sample of `destination` to `value`. -/
def fill (value : α) (destination : Array α) : Outcome Empty (Array α) :=
  .done (Buffer.fill value destination)

/-- Write the samples of `source` over the start of `destination`. -/
def copy (source destination : Array α) : Outcome Empty (Array α) :=
  store source destination

end SignalCore.Samples
