import SignalCore.Proofs.Loader.Wire

/-!
# What reading back tells

A frame that was read back is accepted exactly if every byte of its data came back, each put
together from two bytes of the answer, and otherwise the first that did not is reported
(`writeBlock_readback`).  Nothing is asked of the device here: the answer may be any bytes, and the
frame may be in memory or not.  If the device answers one bit late, the bytes that are compared are
those that it meant to send.
-/

namespace SignalCore.Loader

open Image (Entry)

variable {δ : Type}

/-! ## The data of an answer -/

/-- A byte of the data is put together from two bytes of the answer. -/
lemma getD_receivedData (block : List Entry) (answer : List UInt8) {p : ℕ}
    (hp : p < (payload block).length) :
    (receivedData block answer).getD p 0 =
      (answer.getD (13 + p) 0 <<< 1 ||| answer.getD (14 + p) 0 >>> 7) := by
  have hrealign := Bus.getD_realign answer (13 + p)
  rw [List.getD_eq_getElem?_getD] at hrealign ⊢
  rw [receivedData, List.getElem?_take_of_lt hp, List.getElem?_drop]
  refine hrealign.trans ?_
  rw [Nat.add_right_comm 13 p 1]

/-! ## The verdict -/

/-- A run of one frame is the run of the frame. -/
lemma LoadRun.frameRun {device : Bus.Device δ} {readback : Bool} {block : List Entry} {state : δ}
    {run : Bus.Run (Except Halt Unit) δ} (h : LoadRun device readback [block] state run) :
    FrameRun device readback block state run := by
  cases h with
  | failed hframe => exact hframe
  | passed hframe hok hrest =>
    cases hrest
    rw [List.append_nil, ← hok]
    exact hframe

section Verdict

variable {device : Bus.Device δ} {block : List Entry} {state middle after : δ}
  {answer : Bus.Received (answerLength block)} {run : Bus.Run (Except Halt Unit) δ}

/-- What a frame that is read back comes to, by what is received. -/
lemma FrameRun.verdict (h : FrameRun device true block state run)
    (hwrite : device.respond (writeOperation block) state = (.ok (), middle))
    (hread : device.respond (readOperation block) middle = (.ok answer, after)) :
    let exchanged : List Bus.Event := [announced block, .answered (writeOperation block) (),
      .answered (readOperation block) answer]
    let received := receivedData block answer.val
    (received = payload block ∧ run.value = .ok () ∧ run.events = exchanged) ∨
      ∃ p, IsFirstDifference (payload block) (received.getD · 0) p ∧
        let mismatch : Mismatch :=
          ⟨startAddress block, p, (payload block).getD p 0, received.getD p 0⟩
        run.value = .error (.error (.verify mismatch)) ∧
          run.events = exchanged ++ [.noted ⟨.warn, mismatch.message⟩] := by
  intro exchanged received
  cases h with
  | writeFailed hfailed => cases hwrite.symm.trans hfailed
  | unread hoff => cases hoff
  | readFailed _ hwrite' hfailed =>
    cases hwrite.symm.trans hwrite'
    cases hread.symm.trans hfailed
  | matched _ hwrite' hread' hdata =>
    cases hwrite.symm.trans hwrite'
    cases hread.symm.trans hread'
    exact .inl ⟨hdata, rfl, rfl⟩
  | mismatched _ hwrite' hread' _ hfirst =>
    cases hwrite.symm.trans hwrite'
    cases hread.symm.trans hread'
    obtain ⟨p, hp, hoffset, hexpected, hactual⟩ := isFirstDifference_of_firstDifference? hfirst
    rw [hoffset, Nat.zero_add, hexpected, hactual]
    exact .inr ⟨p, hp, rfl, rfl⟩

/-- A frame is accepted exactly if every byte of its data came back, and the first that did not is
reported otherwise, after one warning. -/
lemma FrameRun.accepted_iff (h : FrameRun device true block state run)
    (hwrite : device.respond (writeOperation block) state = (.ok (), middle))
    (hread : device.respond (readOperation block) middle = (.ok answer, after)) :
    let exchanged : List Bus.Event := [announced block, .answered (writeOperation block) (),
      .answered (readOperation block) answer]
    let received p := answer.val.getD (13 + p) 0 <<< 1 ||| answer.val.getD (14 + p) 0 >>> 7
    let mismatch p : Mismatch := ⟨startAddress block, p, (payload block).getD p 0, received p⟩
    (run.value = .ok () ↔
        ∀ p < (payload block).length, received p = (payload block).getD p 0) ∧
      (run.value = .ok () → run.events = exchanged) ∧
      (run.value ≠ .ok () → ∃ p, IsFirstDifference (payload block) received p ∧
        run.value = .error (.error (.verify (mismatch p))) ∧
        run.events = exchanged ++ [.noted ⟨.warn, (mismatch p).message⟩]) := by
  intro exchanged received mismatch
  have hreceived : ∀ p < (payload block).length,
      (receivedData block answer.val).getD p 0 = received p :=
    fun _ => getD_receivedData block answer.val
  rcases h.verdict hwrite hread with ⟨hdata, hok, hevents⟩ | ⟨p, hp, herror, hevents⟩
  · have hall : ∀ p < (payload block).length, received p = (payload block).getD p 0 := by
      intro p hp
      rw [← hreceived p hp, hdata]
    exact ⟨iff_of_true hok hall, fun _ => hevents, fun hno => absurd hok hno⟩
  · rw [hreceived p hp.1.1] at herror hevents
    have hfirst : IsFirstDifference (payload block) received p := hp.congr hreceived
    have hno : run.value ≠ .ok () := by simp [herror]
    refine ⟨iff_of_false hno ?_, fun hok => absurd hok hno, fun _ => ⟨p, hfirst, herror, hevents⟩⟩
    exact fun hall => hfirst.1.2 (hall p hfirst.1.1)

/-- If the answer is one bit late, what is compared is what the device meant to send. -/
lemma FrameRun.accepted_iff_of_late (h : FrameRun device true block state run)
    (hwrite : device.respond (writeOperation block) state = (.ok (), middle))
    (hread : device.respond (readOperation block) middle = (.ok answer, after))
    {previous last : UInt8} {lead stream : List UInt8} (hlead : lead.length = Bus.payloadOffset)
    (hstream : stream.length = (payload block).length)
    (hanswer : answer.val = Bus.Simulated.lagged previous (lead ++ stream ++ [last])) :
    (run.value = .ok () ↔ stream = payload block) ∧
      (stream ≠ payload block → ∃ p, IsFirstDifference (payload block) (stream.getD · 0) p ∧
        run.value = .error (.error (.verify
          ⟨startAddress block, p, (payload block).getD p 0, stream.getD p 0⟩))) := by
  have hdata : receivedData block answer.val = stream := by
    rw [receivedData, hanswer, ← hstream]
    exact Bus.data_of_lagged previous last hlead
  have hverdict := h.verdict hwrite hread
  rw [hdata] at hverdict
  rcases hverdict with ⟨hsame, hok, -⟩ | ⟨p, hp, herror, -⟩
  · exact ⟨iff_of_true hok hsame, fun hno => absurd hsame hno⟩
  · have hno : run.value ≠ .ok () := by simp [herror]
    refine ⟨iff_of_false hno ?_, fun _ => ⟨p, hp, herror⟩⟩
    rintro rfl
    exact hp.1.2 rfl

end Verdict

/-- **Reading back is sound, complete and precise.**  A block that fits into one frame, of which the
write and the read back do not fail, is accepted exactly if each byte of its data is the byte that
the answer holds in its place, moved by one bit over the bound between two bytes.  Otherwise the
first that is not is reported with both values, after a single warning.

If the device answers one bit late, the block is accepted exactly if the device sent what was
written, and the first byte that it sent otherwise is reported. -/
theorem writeBlock_readback (loader : Loader) (hreadback : loader.readback = true)
    (device : Bus.Device δ) (state middle after : δ) (block : List Entry) (hne : block ≠ [])
    (hlength : block.length ≤ 256) (answer : Bus.Received (answerLength block))
    (hwrite : device.respond (writeOperation block) state = (.ok (), middle))
    (hread : device.respond (readOperation block) middle = (.ok answer, after)) :
    let run := (writeBlock block).play loader device state
    let exchanged : List Bus.Event := [announced block, .answered (writeOperation block) (),
      .answered (readOperation block) answer]
    let received p := answer.val.getD (13 + p) 0 <<< 1 ||| answer.val.getD (14 + p) 0 >>> 7
    let mismatch p : Mismatch := ⟨startAddress block, p, (payload block).getD p 0, received p⟩
    (run.value = .ok () ↔ ∀ p < 4 * block.length, received p = (payload block).getD p 0) ∧
      (run.value = .ok () → run.events = exchanged) ∧
      (run.value ≠ .ok () → ∃ p, IsFirstDifference (payload block) received p ∧
        run.value = .error (.error (.verify (mismatch p))) ∧
        run.events = exchanged ++ [.noted ⟨.warn, (mismatch p).message⟩]) ∧
      ∀ previous lead stream last, lead.length = 13 → stream.length = 4 * block.length →
        answer.val = Bus.Simulated.lagged previous (lead ++ stream ++ [last]) →
        (run.value = .ok () ↔ stream = payload block) ∧
          (stream ≠ payload block → ∃ p,
            IsFirstDifference (payload block) (stream.getD · 0) p ∧
              run.value = .error (.error (.verify
                ⟨startAddress block, p, (payload block).getD p 0, stream.getD p 0⟩))) := by
  intro run exchanged received mismatch
  have hrun : FrameRun device true block state run := by
    have hloaded := loadRun_writeBlock loader device state block
    rw [hreadback, Image.frames_of_length_le hne hlength] at hloaded
    exact hloaded.frameRun
  rw [← length_payload]
  obtain ⟨haccepted, hquiet, hreported⟩ := hrun.accepted_iff hwrite hread
  refine ⟨haccepted, hquiet, hreported, ?_⟩
  intro previous lead stream last hlead hstream hanswer
  exact hrun.accepted_iff_of_late hwrite hread hlead hstream hanswer

/-- The device sends two words back with the lowest bit of the last byte flipped. -/
theorem writeBlock_readback_of_flipped_bit :
    let block : List Entry := [⟨0x1C008000, 0x01020304⟩, ⟨0x1C008004, 0x05060708⟩]
    let state : Bus.Simulated.State := { settings := { corruptions := [(7, 0x01)] } }
    ((writeBlock block).play .new Bus.simulated state).value =
      .error (.error (.verify ⟨0x1C008000, 7, 0x08, 0x09⟩)) := by
  intro block state
  have hlate := (writeBlock_readback .new rfl Bus.simulated state _ _ block (List.cons_ne_nil _ _)
    (by decide) _ rfl rfl).2.2.2 0 (List.replicate 13 0) [1, 2, 3, 4, 5, 6, 7, 9] 0 rfl rfl
    (by decide +kernel)
  obtain ⟨p, hp, hvalue⟩ := hlate.2 (by decide)
  have hlast : ∀ p < 8, [1, 2, 3, 4, 5, 6, 7, 9].getD p 0 ≠ (payload block).getD p 0 → p = 7 := by
    decide
  rwa [hlast p hp.1.1 hp.1.2] at hvalue

end SignalCore.Loader
