import SignalCore.Proofs.Image.Run
import SignalCore.Proofs.Loader.Call
import SignalCore.Proofs.Loader.Honest

/-!
# Entries on the bus

A load cuts its entries into blocks, and a block that is written is cut into frames.  Whoever knows
the runs of an image may as well write each of them with one call, however long it is: the same
frames go out, and what comes back has the same effect (`load_eq_writeRuns`).

What a call that goes well sends is fixed by its entries to the last byte (`writeBlock_on_wire`).
Nothing is lost or doubled where one frame ends and the next begins: the words that the frames
carry, taken together, are the words of the entries.
-/

namespace SignalCore.Loader

open Bus (operations writes)
open Image (Entry Consecutive)

variable {α β δ : Type} {readback : Bool}

/-! ## Whole loads and single runs -/

/-- Write the runs of some entries in order, each in one call.  The first call that fails is the
last. -/
def writeRuns (entries : List Entry) : Action Unit :=
  (Image.runs entries).forM writeBlock

lemma forM_writeBlock (pieces : List (List Entry)) :
    pieces.forM writeBlock = (pieces.flatMap Image.frames).forM writeFrame := by
  induction pieces with
  | nil => rfl
  | cons piece pieces ih =>
    rw [List.flatMap_cons, List.forM_eq_forM, List.forM_append]
    exact congrArg (writeBlock piece >>= fun _ => ·) ih

/-- A block is a single frame, so that cutting it once more changes nothing. -/
lemma flatMap_frames_blocks (entries : List Entry) :
    (Image.blocks entries).flatMap Image.frames = Image.blocks entries := by
  have hframes : ∀ block ∈ Image.blocks entries, Image.frames block = [block] :=
    fun _ hblock => (Image.isBlock_of_mem_blocks hblock).frames_eq
  rw [List.flatMap_congr hframes, List.flatMap_singleton']

lemma load_eq_bind (entries : List Entry) :
    load entries = writeRuns entries >>= fun _ => pure (Image.blocks entries).length := by
  have hframes : (Image.blocks entries).forM writeBlock = writeRuns entries := by
    rw [writeRuns, forM_writeBlock, forM_writeBlock, flatMap_frames_blocks,
      Image.blocks_eq_flatMap_frames]
  rw [load, hframes]

/-- What is made of the value of an action cannot be seen on the bus. -/
lemma Action.play_bind_pure (action : Action α) (f : α → β) (loader : Loader)
    (device : Bus.Device δ) (state : δ) :
    (action >>= fun value => pure (f value)).play loader device state =
      let run := action.play loader device state
      ⟨run.value.map f, run.events, run.device⟩ := by
  simp only [play, script_bind, Bus.Script.run_bind]
  obtain ⟨⟨final, after⟩, events, last⟩ := (action.script loader).run device state
  cases final with
  | error halt => simp only [Bus.Script.run, List.append_nil]; rfl
  | ok value => exact congrArg (Bus.Run.mk _ · _) (List.append_nil _)

/-- **It does not matter where a run is split.**  There is one way to cut entries into runs that
could not have been longer.  On every device, whatever it answers and whatever fails, writing these
runs one by one has the events of a load, leaves the device in the same state and ends with the same
error, or well if the load does. -/
theorem load_eq_writeRuns (entries : List Entry) :
    (∀ cut, Image.IsRunCut entries cut ↔ cut = Image.runs entries) ∧
      ∀ (loader : Loader) (device : Bus.Device δ) (state : δ),
        let whole := (load entries).play loader device state
        let parts := (writeRuns entries).play loader device state
        parts.events = whole.events ∧ parts.device = whole.device ∧
          parts.value = whole.value.map fun _ => () := by
  refine ⟨fun _ => Image.isRunCut_iff, ?_⟩
  intro loader device state whole parts
  have hwhole : whole = _ := congrArg (Action.play · loader device state) (load_eq_bind entries)
  rw [Action.play_bind_pure] at hwhole
  rw [hwhole]
  refine ⟨rfl, rfl, ?_⟩
  change parts.value = (parts.value.map _).map _
  cases parts.value <;> rfl

/-! ## The operations of a load that goes well -/

/-- What is done for a frame if nothing fails. -/
def frameOperations (readback : Bool) (frame : List Entry) : List Bus.Operation :=
  writeOperation frame :: if readback then [readOperation frame] else []

lemma frameOperations_take (readback : Bool) (entries : List Entry) :
    frameOperations readback (entries.take 256) =
      let address := Bus.bigEndian (startAddress entries)
      let data := (entries.take 256).flatMap fun entry => Bus.bigEndian entry.data
      .write (0x02 :: (address ++ data)) ::
        if readback then
          [.transfer (0x0B :: (address ++ List.replicate (9 + data.length) 0)) (14 + data.length)]
        else [] := by
  have haddress : startAddress (entries.take 256) = startAddress entries := by cases entries <;> rfl
  have hzeros : Bus.dummyLength + (payload (entries.take 256)).length + 1 =
      9 + (payload (entries.take 256)).length := by
    rw [Bus.dummyLength]
    omega
  have hlength : answerLength (entries.take 256) = 14 + (payload (entries.take 256)).length := by
    rw [answerLength, Bus.payloadOffset, Bus.headerLength, Bus.dummyLength]
    omega
  simp only [frameOperations, writeOperation, readOperation, writeRequest, readRequest, haddress,
    hzeros, hlength]
  rfl

section Operations

variable {device : Bus.Device δ} {state : δ} {run : Bus.Run (Except Halt Unit) δ}

lemma FrameRun.operations_of_ok {frame : List Entry}
    (h : FrameRun device readback frame state run) (hok : run.value = .ok ()) :
    operations run.events = frameOperations readback frame := by
  cases h with
  | writeFailed | readFailed | mismatched => cases hok
  | unread hoff =>
    subst hoff
    rfl
  | matched hon =>
    subst hon
    rfl

lemma LoadRun.operations_of_ok {frames : List (List Entry)}
    (h : LoadRun device readback frames state run) (hok : run.value = .ok ()) :
    operations run.events = frames.flatMap (frameOperations readback) := by
  induction h with
  | finished => rfl
  | failed _ herror =>
    rw [hok] at herror
    cases herror
  | passed hframe hready _ ih =>
    rw [Bus.operations_append, hframe.operations_of_ok hready, ih hok, List.flatMap_cons]

/-- A frame goes well unless an operation fails or the data that come back are not those that were
sent. -/
lemma FrameRun.ok_iff {frame : List Entry} (h : FrameRun device readback frame state run) :
    run.value = .ok () ↔ (∀ operation, .failed operation ∉ run.events) ∧
      ∀ mismatch, run.value ≠ .error (.error (.verify mismatch)) := by
  cases h <;> simp [announced]

lemma LoadRun.ok_iff_of_answers {frames : List (List Entry)}
    (h : LoadRun device readback frames state run) :
    run.value = .ok () ↔ (∀ operation, .failed operation ∉ run.events) ∧
      ∀ mismatch, run.value ≠ .error (.error (.verify mismatch)) := by
  induction h with
  | finished => simp
  | failed hframe => exact hframe.ok_iff
  | passed hframe hready _ ih =>
    have hhead := (hframe.ok_iff.1 hready).1
    simp [ih, hhead]

end Operations

/-! ## The words that frames carry -/

/-- Words at ascending addresses. -/
def ascending (address : UInt32) : List UInt32 → List Entry
  | [] => []
  | word :: words => ⟨address, word⟩ :: ascending (address + 4) words

/-- The words that a write carries and the address that each of them goes to. -/
def carried : List UInt8 → List Entry
  | _ :: a :: b :: c :: d :: data => ascending (Bus.ofBigEndian a b c d) (Bus.decodeWords data)
  | _ => []

lemma ascending_of_consecutive {entries : List Entry} (h : Consecutive entries) :
    ascending (startAddress entries) (entries.map (·.data)) = entries := by
  induction entries with
  | nil => rfl
  | cons first rest ih =>
    rw [List.map_cons, startAddress, ascending]
    cases rest with
    | nil => rfl
    | cons second rest =>
      obtain ⟨hnext, hrest⟩ := Image.consecutive_cons_cons.1 h
      rw [← hnext]
      exact congrArg _ (ih hrest)

lemma decodeWords_payload (frame : List Entry) :
    Bus.decodeWords (payload frame) = frame.map (·.data) := by
  rw [payload_eq_flatMap, Bus.decodeWords_flatMap_bigEndian]

lemma carried_writeRequest (frame : List Entry) :
    carried (writeRequest frame) = ascending (startAddress frame) (frame.map (·.data)) := by
  rw [← decodeWords_payload]
  exact congrArg (ascending · _) (Bus.ofBigEndian_bigEndian _)

/-- The frames of entries carry the words of the entries. -/
lemma flatMap_decodeWords_frames (entries : List Entry) :
    ((Image.frames entries).map writeRequest).flatMap (fun sent => Bus.decodeWords (sent.drop 5)) =
      entries.map (·.data) := by
  have hdata : ∀ frame : List Entry,
      Bus.decodeWords ((writeRequest frame).drop 5) = frame.map (·.data) := decodeWords_payload
  simp only [List.flatMap_map, hdata]
  conv_rhs => rw [← Image.flatten_frames entries, List.map_flatten]
  exact List.flatMap_def ..

/-- The frames of entries that follow each other carry every word to its own address. -/
lemma flatMap_carried_frames {entries : List Entry} (h : Consecutive entries) :
    ((Image.frames entries).map writeRequest).flatMap carried = entries := by
  have hframes : ∀ frame ∈ Image.frames entries, carried (writeRequest frame) = frame := by
    intro frame hframe
    rw [carried_writeRequest,
      ascending_of_consecutive (Image.isBlock_of_mem_frames h hframe).consecutive]
  rw [List.flatMap_map, List.flatMap_congr hframes]
  exact List.flatMap_id.trans (Image.flatten_frames entries)

/-! ## The frames of a call -/

lemma loadRun_writeBlock (loader : Loader) (device : Bus.Device δ) (state : δ)
    (entries : List Entry) :
    LoadRun device loader.readback (Image.frames entries) state
      ((writeBlock entries).play loader device state) := by
  rw [(follows_writeBlock entries).play_eq]
  exact loadRun_play device loader.readback (Image.frames entries) state

/-- **What a call to write entries sends.**  A call of which no operation fails, and in which
nothing comes back differently from what was sent, ends well.  It has written one frame for every
256 entries or the rest of them: the command, the address of the first, and the words of all.  Each
was read back at the same address at once if the loader does so, in a transfer of 14 bytes more than
the data, and nothing else was done.  The words that the frames carry are the words of the entries
in order, and each goes to its own address if the entries follow each other. -/
theorem writeBlock_on_wire (loader : Loader) (device : Bus.Device δ) (state : δ)
    (entries : List Entry)
    (hanswered : ∀ operation,
      .failed operation ∉ ((writeBlock entries).play loader device state).events)
    (hmatched : ∀ mismatch,
      ((writeBlock entries).play loader device state).value ≠ .error (.error (.verify mismatch))) :
    let run := (writeBlock entries).play loader device state
    run.value = .ok () ∧
      (operations run.events =
        (List.range ((entries.length + 255) / 256)).flatMap fun j =>
          let frame := (entries.drop (256 * j)).take 256
          let address := Bus.bigEndian (startAddress (entries.drop (256 * j)))
          let data := frame.flatMap fun entry => Bus.bigEndian entry.data
          .write (0x02 :: (address ++ data)) ::
            if loader.readback then
              [.transfer (0x0B :: (address ++ List.replicate (9 + data.length) 0))
                (14 + data.length)]
            else []) ∧
      (writes run.events).flatMap (fun sent => Bus.decodeWords (sent.drop 5)) =
        entries.map (·.data) ∧
      (Consecutive entries → (writes run.events).flatMap carried = entries) := by
  intro run
  have hrun : LoadRun device loader.readback (Image.frames entries) state run :=
    loadRun_writeBlock loader device state entries
  have hok : run.value = .ok () := hrun.ok_iff_of_answers.2 ⟨hanswered, hmatched⟩
  refine ⟨hok, ?_, ?_, ?_⟩
  · rw [hrun.operations_of_ok hok, Image.frames_eq_map_range, List.flatMap_map]
    refine List.flatMap_congr fun j _ => ?_
    exact frameOperations_take loader.readback (entries.drop (256 * j))
  · rw [hrun.writes_of_ok hok]
    exact flatMap_decodeWords_frames entries
  · intro hentries
    rw [hrun.writes_of_ok hok]
    exact flatMap_carried_frames hentries

/-- One word more than fits into a frame, at addresses that run over their end. -/
theorem writeBlock_on_wire_of_two_frames :
    let entries : List Entry :=
      (List.range 257).map fun i => ⟨0xFFFFFF00 + 4 * UInt32.ofNat i, UInt32.ofNat i⟩
    let run := (writeBlock entries).play .new Bus.simulated {}
    (∀ operation, .failed operation ∉ run.events) ∧
      (∀ mismatch, run.value ≠ .error (.error (.verify mismatch))) ∧
      run.value = .ok () ∧
      (operations run.events).drop 2 =
        [.write [0x02, 0x00, 0x00, 0x03, 0x00, 0x00, 0x00, 0x01, 0x00],
          .transfer [0x0B, 0x00, 0x00, 0x03, 0x00, 0, 0, 0, 0, 0, 0, 0, 0, 0, 0, 0, 0, 0] 18] ∧
      (writes run.events).flatMap carried = entries := by
  intro entries run
  have hentries : Consecutive entries := by
    unfold Consecutive
    decide +kernel
  have hhonest : ({} : Bus.Simulated.State).settings.Honest := ⟨⟨rfl, rfl⟩, rfl, rfl, rfl⟩
  have hrun := loadRun_writeBlock .new Bus.simulated {} entries
  have hok := (hrun.of_honest Bus.Simulated.honest_simulated
    (fun _ => Image.isBlock_of_mem_frames hentries) hhonest).1
  obtain ⟨hanswered, hmatched⟩ := hrun.ok_iff_of_answers.1 hok
  obtain ⟨hvalue, hoperations, -, hcarried⟩ :=
    writeBlock_on_wire .new Bus.simulated {} entries hanswered hmatched
  refine ⟨hanswered, hmatched, hvalue, ?_, hcarried hentries⟩
  rw [hoperations]
  decide +kernel

end SignalCore.Loader
