import SignalCore.Bus.Frame
import SignalCore.Image.Entry

/-!
# Blocks of consecutive entries

Entries whose addresses advance by one word, modulo `2 ^ 32`, can be sent together.  `blocks`
cuts a list of entries into such blocks from the front, each as long as it can be, and `frames`
cuts a list every `Bus.maxBlockWords` entries, whatever its addresses.
-/

namespace SignalCore.Image

/-- The entries at the front that continue a run after `address`, at most `room` of them, and the
entries after those. -/
def continueRun : Nat → UInt32 → List Entry → List Entry × List Entry
  | 0, _, entries => ([], entries)
  | _ + 1, _, [] => ([], [])
  | room + 1, address, entry :: rest =>
    if entry.address = address + 4 then
      let run := continueRun room entry.address rest
      (entry :: run.1, run.2)
    else ([], entry :: rest)

/-- A run and what comes after it make up the entries. -/
theorem continueRun_append (room : Nat) (address : UInt32) (entries : List Entry) :
    (continueRun room address entries).1 ++ (continueRun room address entries).2 = entries := by
  fun_induction continueRun room address entries with
  | case1 | case2 | case4 => rfl
  | case3 room address entry rest _ run ih => exact congrArg (entry :: ·) ih

theorem length_continueRun_le (room : Nat) (address : UInt32) (entries : List Entry) :
    (continueRun room address entries).2.length ≤ entries.length := by
  have h := congrArg List.length (continueRun_append room address entries)
  simp only [List.length_append] at h
  omega

/-- The entries cut into blocks, in order. -/
def blocks : List Entry → List (List Entry)
  | [] => []
  | first :: rest =>
    (first :: (continueRun (Bus.maxBlockWords - 1) first.address rest).1) ::
      blocks (continueRun (Bus.maxBlockWords - 1) first.address rest).2
termination_by entries => entries.length
decreasing_by
  have := length_continueRun_le (Bus.maxBlockWords - 1) first.address rest
  simp only [List.length_cons]
  omega

/-- The entries cut every `Bus.maxBlockWords`, in order. -/
def frames : List Entry → List (List Entry)
  | [] => []
  | first :: rest =>
    (first :: rest.take (Bus.maxBlockWords - 1)) :: frames (rest.drop (Bus.maxBlockWords - 1))
termination_by entries => entries.length
decreasing_by
  simp only [List.length_drop, List.length_cons]
  omega

end SignalCore.Image
