/-!
# Outcomes of buffer operations

Every kernel works in buffers that its caller supplies.  The caller keeps those buffers however
the call ends, so an outcome carries their final contents in each of its three cases, and the
only other thing that it tells is how the call ended.
-/

namespace SignalCore

/-- How a call that works in caller-supplied buffers ended, with the final contents of the
buffers.  `ε` is the type of reasons for a refusal; a kernel that never refuses its input uses
`Empty`. -/
inductive Outcome (ε β : Type) where
  /-- The call ran to its end. -/
  | done (buffers : β)
  /-- The call declined its input for a stated reason. -/
  | refused (reason : ε) (buffers : β)
  /-- The call asked for more samples than a buffer holds. -/
  | outOfBounds (buffers : β)
deriving DecidableEq, Repr

namespace Outcome

variable {ε β : Type}

/-- The final contents of the buffers, however the call ended. -/
def buffers : Outcome ε β → β
  | done buffers => buffers
  | refused _ buffers => buffers
  | outOfBounds buffers => buffers

end Outcome

end SignalCore
