import SignalCore.Proofs.Bus.Frame
import SignalCore.Proofs.Bus.Memory
import Mathlib.Data.Set.Basic

/-!
# Devices with a memory

What is asked of a device is asked in a set of states that it never leaves, so that a device may
behave well under some settings only.  A `Truthful` device answers reads with what its memory holds,
one bit late.  Nothing is said of its writes beyond that: a device with `ConfinedWrites` may store,
drop or garble what a frame carries, as long as it changes no byte outside the frame's own
addresses, and an `Honest` device stores it and fails no operation.

A `Contained` device need not even be truthful: whatever it answers, and whether it answers at all,
only the addresses of a frame that is written can have changed.

No bound is put on what else a device does, so it may fail, count, or change its mind about what it
stores.  The simulated device is truthful with confined writes as long as it answers late and flips
no bits (`confinedWrites_simulated`), and honest if besides it drops nothing and fails nothing
(`honest_simulated`).  It is contained under all settings (`contained_simulated`).
-/

namespace SignalCore.Bus

open Simulated (Memory)

variable {δ : Type}

/-! ## Late answers -/

/-- The bytes are a true answer to a read of the memory at `address`: a stream with the data behind
`payloadOffset` bytes of any kind, and one more byte of any kind after them, that arrived one bit
late. -/
def TrueAnswer (memory : Memory) (address : UInt32) (answer : List UInt8) : Prop :=
  ∃ previous lead last, lead.length = payloadOffset ∧
    answer = Simulated.lagged previous
      (lead ++ memory.fetch address (answer.length - (payloadOffset + 1)) ++ [last])

/-- Moved back, a true answer has the data where they belong. -/
theorem TrueAnswer.data_eq {memory : Memory} {address : UInt32} {answer : List UInt8} {count : ℕ}
    (h : TrueAnswer memory address answer) (hcount : answer.length = payloadOffset + count + 1) :
    ((realign answer).drop payloadOffset).take count = memory.fetch address count := by
  obtain ⟨previous, lead, last, hlead, hanswer⟩ := h
  have hrest : answer.length - (payloadOffset + 1) = count := by omega
  rw [hrest] at hanswer
  have hdata : ((realign answer).drop payloadOffset).take (memory.fetch address count).length =
      memory.fetch address count := by
    rw [hanswer]
    exact data_of_lagged previous last hlead
  rwa [Memory.length_fetch] at hdata

/-! ## Classes of devices -/

/-- In these states the device answers reads from its memory, truthfully and one bit late, and
leaves the memory as it is. -/
structure Truthful (device : Device δ) (states : Set δ) (memory : δ → Memory) : Prop where
  /-- The device does not leave the states. -/
  closed : ∀ operation, ∀ state ∈ states, (device.respond operation state).2 ∈ states
  /-- A read that is answered is answered truthfully. -/
  read : ∀ state ∈ states, ∀ address rest count answer after, payloadOffset + 1 ≤ count →
    device.respond (.transfer (readCommand :: (bigEndian address ++ rest)) count) state =
        (.ok answer, after) →
      TrueAnswer (memory state) address answer.val ∧ memory after = memory state

/-- A truthful device whose writes change at most the addresses of the frame that is written. -/
structure ConfinedWrites (device : Device δ) (states : Set δ) (memory : δ → Memory) : Prop extends
    Truthful device states memory where
  write : ∀ state ∈ states, ∀ address bytes after,
    device.respond (.write (writeCommand :: (bigEndian address ++ bytes))) state =
        (.ok (), after) →
      ∀ a : UInt32, bytes.length ≤ (a - address).toNat → memory after a = memory state a

/-- A truthful device that stores what is written and fails no operation. -/
structure Honest (device : Device δ) (states : Set δ) (memory : δ → Memory) : Prop extends
    Truthful device states memory where
  answers : ∀ operation, ∀ state ∈ states, ∃ reply, (device.respond operation state).1 = .ok reply
  write : ∀ state ∈ states, ∀ address bytes,
    memory (device.respond (.write (writeCommand :: (bigEndian address ++ bytes))) state).2 =
      (memory state).store address bytes
  drive : ∀ state ∈ states, ∀ line level,
    memory (device.respond (.drive line level) state).2 = memory state

/-- In these states a write, failed or not, changes at most the addresses of the frame that is
written, and a read changes nothing. -/
structure Contained (device : Device δ) (states : Set δ) (memory : δ → Memory) : Prop where
  /-- The device does not leave the states. -/
  closed : ∀ operation, ∀ state ∈ states, (device.respond operation state).2 ∈ states
  write : ∀ state ∈ states, ∀ address bytes, ∀ a : UInt32, bytes.length ≤ (a - address).toNat →
    memory (device.respond (.write (writeCommand :: (bigEndian address ++ bytes))) state).2 a =
      memory state a
  read : ∀ state ∈ states, ∀ address rest count, payloadOffset + 1 ≤ count →
    memory (device.respond (.transfer (readCommand :: (bigEndian address ++ rest)) count) state).2 =
      memory state

section Classes

variable {device : Device δ} {states : Set δ} {memory : δ → Memory} {state after : δ}

lemma Truthful.mem_of_respond (h : Truthful device states memory) (hstate : state ∈ states)
    {operation : Operation} {reply : Except Fault operation.Reply}
    (hrespond : device.respond operation state = (reply, after)) : after ∈ states := by
  have hclosed := h.closed operation state hstate
  rwa [hrespond] at hclosed

lemma Honest.not_failed (h : Honest device states memory) (hstate : state ∈ states)
    {operation : Operation} {fault : Fault} :
    device.respond operation state ≠ (.error fault, after) := by
  intro hrespond
  obtain ⟨reply, hreply⟩ := h.answers operation state hstate
  rw [hrespond] at hreply
  cases hreply

lemma Honest.memory_of_write (h : Honest device states memory) (hstate : state ∈ states)
    {address : UInt32} {bytes : List UInt8} {reply : Except Fault Unit}
    (hrespond : device.respond (.write (writeCommand :: (bigEndian address ++ bytes))) state =
      (reply, after)) : memory after = (memory state).store address bytes := by
  have hwrite := h.write state hstate address bytes
  rwa [hrespond] at hwrite

lemma Honest.memory_of_drive (h : Honest device states memory) (hstate : state ∈ states)
    {line : Line} {level : Level} {reply : Except Fault Unit}
    (hrespond : device.respond (.drive line level) state = (reply, after)) :
    memory after = memory state := by
  have hdrive := h.drive state hstate line level
  rwa [hrespond] at hdrive

/-- What an honest device does is contained, since it leaves nothing unanswered. -/
theorem Honest.contained (h : Honest device states memory) : Contained device states memory where
  closed := h.closed
  write state hstate address bytes a ha := by
    rw [h.write state hstate, Memory.store_apply_of_le _ ha]
  read state hstate address rest count hcount := by
    obtain ⟨reply, after, hread⟩ : ∃ reply after,
        device.respond (.transfer (readCommand :: (bigEndian address ++ rest)) count) state =
          (reply, after) := ⟨_, _, rfl⟩
    cases reply with
    | error fault => exact (h.not_failed hstate hread).elim
    | ok answer =>
      rw [hread]
      exact (h.read state hstate address rest count answer after hcount hread).2

lemma Contained.mem_of_respond (h : Contained device states memory) (hstate : state ∈ states)
    {operation : Operation} {reply : Except Fault operation.Reply}
    (hrespond : device.respond operation state = (reply, after)) : after ∈ states := by
  have hclosed := h.closed operation state hstate
  rwa [hrespond] at hclosed

lemma Contained.apply_of_write (h : Contained device states memory) (hstate : state ∈ states)
    {address a : UInt32} {bytes : List UInt8} {reply : Except Fault Unit}
    (hrespond : device.respond (.write (writeCommand :: (bigEndian address ++ bytes))) state =
      (reply, after)) (ha : bytes.length ≤ (a - address).toNat) :
    memory after a = memory state a := by
  have hwrite := h.write state hstate address bytes a ha
  rwa [hrespond] at hwrite

lemma Contained.memory_of_read (h : Contained device states memory) (hstate : state ∈ states)
    {address : UInt32} {rest : List UInt8} {count : ℕ} (hcount : payloadOffset + 1 ≤ count)
    {reply : Except Fault (Received count)}
    (hrespond : device.respond (.transfer (readCommand :: (bigEndian address ++ rest)) count)
      state = (reply, after)) : memory after = memory state := by
  have hread := h.read state hstate address rest count hcount
  rwa [hrespond] at hread

end Classes

/-! ## The simulated device -/

namespace Simulated

/-- Reads are answered late and no bits are flipped. -/
def Settings.Late (settings : Settings) : Prop :=
  settings.lag = true ∧ settings.corruptions = []

/-- Besides, no write is dropped and no operation fails. -/
def Settings.Honest (settings : Settings) : Prop :=
  settings.Late ∧ settings.dropWrites = false ∧ settings.busFaults = [] ∧ settings.pinFaults = []

/-- The settings stay as they are. -/
lemma settings_respond (operation : Operation) (state : State) :
    (simulated.respond operation state).2.settings = state.settings := by
  cases operation <;> simp only [simulated, respond] <;> split_ifs <;> rfl

lemma memory_of_write {state after : State} {sent : List UInt8}
    (h : simulated.respond (.write sent) state = (.ok (), after)) :
    after.memory = written state sent := by
  simp only [simulated, respond] at h
  split_ifs at h
  · cases h
  · cases h
    rfl

lemma answer_of_transfer {state after : State} {sent : List UInt8} {count : ℕ}
    {reply : Received count}
    (h : simulated.respond (.transfer sent count) state = (.ok reply, after)) :
    reply = answer state sent count ∧ after.memory = state.memory := by
  simp only [simulated, respond] at h
  split_ifs at h
  · cases h
  · cases h
    exact ⟨rfl, rfl⟩

lemma padTo_of_length_eq {count : ℕ} (filler : UInt8) {bytes : List UInt8}
    (h : bytes.length = count) : (padTo count filler bytes).val = bytes := by
  subst h
  exact List.take_left

lemma answer_read {state : State} (hlag : state.settings.lag = true) (address : UInt32)
    (rest : List UInt8) (count : ℕ) :
    answer state (readCommand :: (bigEndian address ++ rest)) count =
      padTo count state.settings.filler
        (lagged 0 (padTo count state.settings.filler (readStream state address count)).val) := by
  simp only [answer, bigEndian, List.cons_append, List.nil_append, ofBigEndian_bigEndian, hlag,
    if_true]

/-- A read of the simulated memory in such a state is answered truthfully. -/
lemma trueAnswer_answer {state : State} (hstate : state.settings.Late) (address : UInt32)
    (rest : List UInt8) {count : ℕ} (hcount : payloadOffset + 1 ≤ count) :
    TrueAnswer state.memory address
      (answer state (readCommand :: (bigEndian address ++ rest)) count).val := by
  obtain ⟨hlag, hcorruptions⟩ := hstate
  have hstream : readStream state address count =
      List.replicate payloadOffset state.settings.filler ++
        state.memory.fetch address (count - (payloadOffset + 1)) ++ [state.settings.filler] := by
    rw [readStream, hcorruptions]
    rfl
  have hlength : (readStream state address count).length = count := by
    rw [hstream, List.length_append, List.length_append, List.length_replicate,
      Memory.length_fetch, List.length_singleton]
    omega
  refine ⟨0, List.replicate payloadOffset state.settings.filler, state.settings.filler,
    List.length_replicate, ?_⟩
  rw [(answer _ _ _).property, answer_read hlag, padTo_of_length_eq _ hlength,
    padTo_of_length_eq _ (by rw [length_lagged, hlength]), hstream]

theorem truthful_simulated :
    Truthful simulated { state | state.settings.Late } State.memory where
  closed operation state hstate := by
    change (simulated.respond operation state).2.settings.Late
    rw [settings_respond]
    exact hstate
  read state hstate address rest count reply after hcount hread := by
    obtain ⟨rfl, hmemory⟩ := answer_of_transfer hread
    exact ⟨trueAnswer_answer hstate address rest hcount, hmemory⟩

lemma written_write {state : State} (hkeeps : state.settings.dropWrites = false)
    (address : UInt32) (bytes : List UInt8) :
    written state (writeCommand :: (bigEndian address ++ bytes)) =
      state.memory.store address bytes := by
  simp only [written, bigEndian, List.cons_append, List.nil_append, ofBigEndian_bigEndian, hkeeps]
  rfl

lemma written_write_of_drop {state : State} (hdrops : state.settings.dropWrites = true)
    (address : UInt32) (bytes : List UInt8) :
    written state (writeCommand :: (bigEndian address ++ bytes)) = state.memory := by
  simp only [written, bigEndian, List.cons_append, List.nil_append, hdrops]
  rfl

/-- Kept or dropped, a write stays within its addresses. -/
lemma written_write_apply (state : State) {address a : UInt32} {bytes : List UInt8}
    (ha : bytes.length ≤ (a - address).toNat) :
    written state (writeCommand :: (bigEndian address ++ bytes)) a = state.memory a := by
  cases hdrop : state.settings.dropWrites with
  | true => rw [written_write_of_drop hdrop]
  | false => rw [written_write hdrop, Memory.store_apply_of_le _ ha]

theorem confinedWrites_simulated :
    ConfinedWrites simulated { state | state.settings.Late } State.memory where
  toTruthful := truthful_simulated
  write state _ address bytes after hwrite a ha := by
    rw [memory_of_write hwrite, written_write_apply state ha]

theorem contained_simulated : Contained simulated Set.univ State.memory where
  closed _ _ _ := Set.mem_univ _
  write state _ address bytes a ha := by
    simp only [simulated, respond]
    split_ifs
    · rfl
    · exact written_write_apply state ha
  read state _ address rest count _ := by
    simp only [simulated, respond]
    split_ifs <;> rfl

theorem honest_simulated :
    Honest simulated { state | state.settings.Honest } State.memory where
  closed operation state hstate := by
    change (simulated.respond operation state).2.settings.Honest
    rw [settings_respond]
    exact hstate
  read state hstate := truthful_simulated.read state hstate.1
  answers operation state hstate := by
    obtain ⟨-, -, hbus, hpin⟩ := hstate
    cases operation <;> simp [simulated, respond, hbus, hpin]
  write state hstate address bytes := by
    obtain ⟨-, hkeeps, hbus, -⟩ := hstate
    simp [simulated, respond, hbus, written_write hkeeps]
  drive state hstate line level := by
    obtain ⟨-, -, -, hpin⟩ := hstate
    simp [simulated, respond, hpin]

end Simulated

end SignalCore.Bus
