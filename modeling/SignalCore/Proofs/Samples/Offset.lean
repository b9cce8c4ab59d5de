import SignalCore.Proofs.Buffer
import SignalCore.Samples.Arithmetic

/-!
# Offsets on packed pairs

The lanes of a packed sum are the sums of the lanes, so an offset that takes samples in pairs
gives what an offset of each sample alone does, the last odd sample included
(`offsetPairs_eq_map`).
-/

namespace SignalCore

namespace Packed

@[simp]
lemma low_saturatingAdd (a b : Packed) :
    (a.saturatingAdd b).low = Q15.saturatingAdd a.low b.low :=
  low_ofLanes _ _

@[simp]
lemma high_saturatingAdd (a b : Packed) :
    (a.saturatingAdd b).high = Q15.saturatingAdd a.high b.high :=
  high_ofLanes _ _

end Packed

namespace Samples

lemma offsetPairs_eq_map (amount : Int16) (source : List Int16) :
    offsetPairs amount source = source.map (Q15.saturatingAdd · amount) := by
  fun_induction offsetPairs amount source with
  | case1 a b rest sums ih =>
    simp only [sums, Packed.low_saturatingAdd, Packed.high_saturatingAdd, Packed.low_ofLanes,
      Packed.high_ofLanes, List.map_cons, ih]
  | case2 a => rfl
  | case3 => rfl

theorem offset_lanes (lanes lanes' : Lanes) (source : Array Int16) (amount : Int16)
    (destination : Array Int16) :
    offset lanes source amount destination = offset lanes' source amount destination := by
  have hsamples : ∀ lanes, offsetSamples lanes amount source =
      source.map (Q15.saturatingAdd · amount) := by
    intro lanes
    cases lanes with
    | one => rfl
    | two =>
      rw [offsetSamples, offsetPairs_eq_map, ← Array.toList_map]
  rw [offset, offset, hsamples, hsamples]

end Samples

end SignalCore
