import SignalCore.Bus.Simulated
import Mathlib.Algebra.Group.Nat.Defs
import Mathlib.Tactic.Common

/-!
# Memory at ascending addresses

Addresses are counted modulo `2 ^ 32`, so the bytes that are stored from `address` on are those at
the addresses `a` for which `a - address` is small.  `store` and `fetch` are inverse to each other
on a run that does not go all the way round (`fetch_store`, `eq_store_of_fetch`), and such a run
may be stored in two parts, in the order of their addresses (`store_append`).
-/

namespace SignalCore.Bus.Simulated.Memory

variable {memory memory' : Memory} {address : UInt32}

/-! ## Addresses -/

lemma add_offset (address a : UInt32) : address + UInt32.ofNat (a - address).toNat = a := by
  rw [UInt32.ofNat_toNat, UInt32.add_comm, UInt32.sub_add_cancel]

lemma offset_add {i : ℕ} (hi : i < 2 ^ 32) : (address + UInt32.ofNat i - address).toNat = i := by
  rw [UInt32.add_comm, UInt32.add_sub_cancel, UInt32.toNat_ofNat_of_lt' hi]

/-- The distance to an address further on is shorter by the way that was gone, or has come round. -/
lemma offset_further (address a : UInt32) {n : ℕ} (hn : n < 2 ^ 32) :
    (a - (address + UInt32.ofNat n)).toNat =
      if n ≤ (a - address).toNat then (a - address).toNat - n
      else (a - address).toNat + 2 ^ 32 - n := by
  have ha := a.toNat_lt
  have haddress := address.toNat_lt
  have hn' : (UInt32.ofNat n).toNat = n := UInt32.toNat_ofNat_of_lt' hn
  rw [UInt32.toNat_sub, UInt32.toNat_sub, UInt32.toNat_add, hn']
  split_ifs <;> omega

/-! ## Storing and fetching -/

lemma store_apply (memory : Memory) (address : UInt32) (bytes : List UInt8) (a : UInt32) :
    memory.store address bytes a = bytes[(a - address).toNat]?.getD (memory a) := by
  simp [store]

lemma store_apply_of_le (memory : Memory) {address a : UInt32} {bytes : List UInt8}
    (h : bytes.length ≤ (a - address).toNat) : memory.store address bytes a = memory a := by
  rw [store_apply, List.getElem?_eq_none h]
  rfl

@[simp]
lemma store_nil (memory : Memory) (address : UInt32) : memory.store address [] = memory := by
  funext a
  rw [store_apply]
  rfl

@[simp]
lemma length_fetch (memory : Memory) (address : UInt32) (count : ℕ) :
    (memory.fetch address count).length = count := by
  simp [fetch]

lemma getElem?_fetch (memory : Memory) (address : UInt32) {count i : ℕ} (hi : i < count) :
    (memory.fetch address count)[i]? = some (memory (address + UInt32.ofNat i)) := by
  simp [fetch, hi]

/-- What was stored is fetched. -/
theorem fetch_store {bytes : List UInt8} (h : bytes.length ≤ 2 ^ 32) :
    (memory.store address bytes).fetch address bytes.length = bytes := by
  apply List.ext_getElem?
  intro i
  by_cases hi : i < bytes.length
  · rw [getElem?_fetch _ _ hi, store_apply, offset_add (by omega), List.getElem?_eq_getElem hi]
    rfl
  · rw [List.getElem?_eq_none (by simpa using hi), List.getElem?_eq_none (by omega)]

/-- A memory that differs from another at most where some bytes are due, and has these bytes
there, is the other with the bytes stored. -/
theorem eq_store_of_fetch {bytes : List UInt8}
    (hfetch : memory'.fetch address bytes.length = bytes)
    (helse : ∀ a, bytes.length ≤ (a - address).toNat → memory' a = memory a) :
    memory' = memory.store address bytes := by
  funext a
  rw [store_apply]
  by_cases ha : (a - address).toNat < bytes.length
  · have hbyte := getElem?_fetch memory' address ha
    rw [hfetch, add_offset] at hbyte
    rw [hbyte]
    rfl
  · rw [List.getElem?_eq_none (by omega)]
    exact helse a (by omega)

/-- A run of bytes may be stored in two parts. -/
theorem store_append {first second : List UInt8} (h : first.length + second.length < 2 ^ 32) :
    memory.store address (first ++ second) =
      (memory.store address first).store (address + UInt32.ofNat first.length) second := by
  funext a
  rw [store_apply, store_apply, store_apply, offset_further _ _ (by omega)]
  split_ifs with hfirst
  · rw [List.getElem?_append_right hfirst, List.getElem?_eq_none hfirst]
    rfl
  · rw [List.getElem?_append_left (by omega), List.getElem?_eq_none (l := second) (by omega)]
    rfl

end SignalCore.Bus.Simulated.Memory
