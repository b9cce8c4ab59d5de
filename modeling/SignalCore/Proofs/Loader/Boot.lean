import SignalCore.Proofs.Image.Scan
import SignalCore.Proofs.Loader.Delivery

/-!
# Starting a core

A boot drives four control lines, the first three before it loads an image and the last after.
`ResetRun`, `StartRun` and `BootRun` list how its parts can end, and `boot_starts_loaded_core` says
what follows for the core: it is let run only after every block of the image was delivered, and
nothing is loaded but while it is held.
-/

namespace SignalCore.Loader

open Bus (busEvents drives)
open Image (Entry)

variable {δ : Type}

/-! ## The runs of a reset and of a start -/

/-- The line was driven. -/
def driven (line : Bus.Line) (level : Bus.Level) : Bus.Event :=
  .answered (.drive line level) ()

/-- The line could not be driven. -/
def undriven (line : Bus.Line) (level : Bus.Level) : Bus.Event :=
  .failed (.drive line level)

/-- The runs of a reset. -/
inductive ResetRun (device : Bus.Device δ) (state : δ) : Bus.Run (Except Halt Unit) δ → Prop
  | stopFailed {stopped : δ} {fault : Bus.Fault}
      (hstop : device.respond (.drive .fetch .low) state = (.error fault, stopped)) :
      ResetRun device state ⟨.error (.error (.pin fault)), [undriven .fetch .low], stopped⟩
  | holdFailed {stopped held : δ} {fault : Bus.Fault}
      (hstop : device.respond (.drive .fetch .low) state = (.ok (), stopped))
      (hhold : device.respond (.drive .reset .low) stopped = (.error fault, held)) :
      ResetRun device state
        ⟨.error (.error (.pin fault)), [driven .fetch .low, undriven .reset .low], held⟩
  | releaseFailed {stopped held released : δ} {fault : Bus.Fault}
      (hstop : device.respond (.drive .fetch .low) state = (.ok (), stopped))
      (hhold : device.respond (.drive .reset .low) stopped = (.ok (), held))
      (hrelease : device.respond (.drive .reset .high) held = (.error fault, released)) :
      ResetRun device state
        ⟨.error (.error (.pin fault)),
          [driven .fetch .low, driven .reset .low, undriven .reset .high], released⟩
  | done {stopped held released : δ}
      (hstop : device.respond (.drive .fetch .low) state = (.ok (), stopped))
      (hhold : device.respond (.drive .reset .low) stopped = (.ok (), held))
      (hrelease : device.respond (.drive .reset .high) held = (.ok (), released)) :
      ResetRun device state
        ⟨.ok (), [driven .fetch .low, driven .reset .low, driven .reset .high,
          .noted ⟨.info, "core has been reset"⟩], released⟩

/-- The runs of a start. -/
inductive StartRun (device : Bus.Device δ) (state : δ) : Bus.Run (Except Halt Unit) δ → Prop
  | failed {started : δ} {fault : Bus.Fault}
      (hstart : device.respond (.drive .fetch .high) state = (.error fault, started)) :
      StartRun device state ⟨.error (.error (.pin fault)), [undriven .fetch .high], started⟩
  | done {started : δ}
      (hstart : device.respond (.drive .fetch .high) state = (.ok (), started)) :
      StartRun device state
        ⟨.ok (), [driven .fetch .high, .noted ⟨.info, "core started"⟩], started⟩

theorem resetRun_play (device : Bus.Device δ) (state : δ) :
    ResetRun device state (Protocol.resetCore.play device state) := by
  rw [Protocol.resetCore, Protocol.drive]
  obtain ⟨reply, stopped, hstop⟩ : ∃ reply stopped,
      device.respond (.drive .fetch .low) state = (reply, stopped) := ⟨_, _, rfl⟩
  cases reply with
  | error fault =>
    rw [Protocol.play_perform_bind_of_error hstop]
    exact .stopFailed hstop
  | ok reply =>
    rw [Protocol.play_perform_bind_of_ok hstop, Protocol.drive]
    obtain ⟨reply, held, hhold⟩ : ∃ reply held,
        device.respond (.drive .reset .low) stopped = (reply, held) := ⟨_, _, rfl⟩
    cases reply with
    | error fault =>
      rw [Protocol.play_perform_bind_of_error hhold]
      exact .holdFailed hstop hhold
    | ok reply =>
      rw [Protocol.play_perform_bind_of_ok hhold, Protocol.drive]
      obtain ⟨reply, released, hrelease⟩ : ∃ reply released,
          device.respond (.drive .reset .high) held = (reply, released) := ⟨_, _, rfl⟩
      cases reply with
      | error fault =>
        rw [Protocol.play_perform_bind_of_error hrelease]
        exact .releaseFailed hstop hhold hrelease
      | ok reply =>
        rw [Protocol.play_perform_bind_of_ok hrelease]
        exact .done hstop hhold hrelease

theorem startRun_play (device : Bus.Device δ) (state : δ) :
    StartRun device state (Protocol.startCore.play device state) := by
  rw [Protocol.startCore, Protocol.drive]
  obtain ⟨reply, started, hstart⟩ : ∃ reply started,
      device.respond (.drive .fetch .high) state = (reply, started) := ⟨_, _, rfl⟩
  cases reply with
  | error fault =>
    rw [Protocol.play_perform_bind_of_error hstart]
    exact .failed hstart
  | ok reply =>
    rw [Protocol.play_perform_bind_of_ok hstart]
    exact .done hstart

/-! ## The run of a boot -/

/-- The note that is made when an image is loaded. -/
def loadedNote (count : ℕ) (entries : List Entry) : Bus.Event :=
  .noted ⟨.info, "loaded " ++ toString count ++ " entries in " ++
    toString (Image.blocks entries).length ++ " blocks"⟩

/-- The runs of a boot: it ends with a reset that failed, with a load that failed, or with a
start. -/
inductive BootRun (device : Bus.Device δ) (readback : Bool) (count : ℕ) (entries : List Entry)
    (state : δ) : Bus.Run (Except Halt Unit) δ → Prop
  | notReset {reset : Bus.Run (Except Halt Unit) δ} {halt : Halt}
      (hreset : ResetRun device state reset) (herror : reset.value = .error halt) :
      BootRun device readback count entries state ⟨.error halt, reset.events, reset.device⟩
  | notLoaded {reset load : Bus.Run (Except Halt Unit) δ} {halt : Halt}
      (hreset : ResetRun device state reset) (hready : reset.value = .ok ())
      (hload : LoadRun device readback (Image.blocks entries) reset.device load)
      (herror : load.value = .error halt) :
      BootRun device readback count entries state
        ⟨.error halt, reset.events ++ load.events, load.device⟩
  | loaded {reset load start : Bus.Run (Except Halt Unit) δ}
      (hreset : ResetRun device state reset) (hready : reset.value = .ok ())
      (hload : LoadRun device readback (Image.blocks entries) reset.device load)
      (hloaded : load.value = .ok ()) (hstart : StartRun device load.device start) :
      BootRun device readback count entries state
        ⟨start.value, reset.events ++ (load.events ++ loadedNote count entries :: start.events),
          start.device⟩

theorem bootRun_play (device : Bus.Device δ) (readback : Bool) (count : ℕ) (entries : List Entry)
    (state : δ) :
    BootRun device readback count entries state
      ((Protocol.bootEntries readback count entries).play device state) := by
  rw [Protocol.bootEntries]
  have hreset := resetRun_play device state
  cases hready : (Protocol.resetCore.play device state).value with
  | error halt =>
    rw [Protocol.play_bind_of_error hready]
    exact .notReset hreset hready
  | ok value =>
    rw [Protocol.play_bind_of_ok hready]
    dsimp only
    cases hloaded : ((Protocol.frames readback (Image.blocks entries)).play device
        (Protocol.resetCore.play device state).device).value with
    | error halt =>
      rw [play_load_bind_of_error hloaded]
      dsimp only
      exact .notLoaded hreset hready (loadRun_play _ _ _ _) hloaded
    | ok value =>
      rw [play_load_bind_of_ok hloaded]
      dsimp only
      exact .loaded hreset hready (loadRun_play _ _ _ _) hloaded (startRun_play _ _)

/-! ## The order of a boot -/

/-- What happens in a reset that goes well. -/
def resetTrace : List Bus.Event :=
  [driven .fetch .low, driven .reset .low, driven .reset .high,
    .noted ⟨.info, "core has been reset"⟩]

section Facts

variable {device : Bus.Device δ} {state : δ} {run : Bus.Run (Except Halt Unit) δ}

lemma ResetRun.events_of_ok (h : ResetRun device state run) (hok : run.value = .ok ()) :
    run.events = resetTrace := by
  cases h with
  | stopFailed | holdFailed | releaseFailed => cases hok
  | done => rfl

lemma ResetRun.busEvents_eq_nil (h : ResetRun device state run) : busEvents run.events = [] := by
  cases h <;> rfl

lemma ResetRun.drives_prefix (h : ResetRun device state run) :
    drives run.events <+: [(.fetch, .low), (.reset, .low), (.reset, .high)] := by
  cases h <;> exact ⟨_, rfl⟩

/-- A reset does not start the core. -/
lemma ResetRun.not_started (h : ResetRun device state run) :
    (.fetch, .high) ∉ drives run.events := by
  intro hmem
  have hlisted := h.drives_prefix.subset hmem
  revert hlisted
  decide

/-- The reset line is released last. -/
lemma ResetRun.not_released_of_error {halt : Halt} (h : ResetRun device state run)
    (herror : run.value = .error halt) : driven .reset .high ∉ run.events := by
  cases h with
  | stopFailed | holdFailed | releaseFailed => simp [driven, undriven]
  | done => cases herror

lemma StartRun.busEvents_eq_nil (h : StartRun device state run) : busEvents run.events = [] := by
  cases h <;> rfl

lemma StartRun.drives_eq (h : StartRun device state run) :
    drives run.events = [(.fetch, .high)] := by
  cases h <;> rfl

lemma StartRun.ok_iff (h : StartRun device state run) :
    run.value = .ok () ↔ driven .fetch .high ∈ run.events := by
  cases h <;> simp [driven, undriven]

lemma drives_loadedNote_cons (count : ℕ) (entries : List Entry) (events : List Bus.Event) :
    drives (loadedNote count entries :: events) = drives events := rfl

lemma busEvents_loadedNote_cons (count : ℕ) (entries : List Entry) (events : List Bus.Event) :
    busEvents (loadedNote count entries :: events) = busEvents events := rfl

/-- A load makes up the middle of a boot, so what comes before one of its bus events is a reset
that went well and some of the load. -/
lemma released_of_split {loading last before after : List Bus.Event} {event : Bus.Event}
    (hloading : drives loading = []) (hlast : busEvents last = []) (hbus : event.onBus)
    (hsplit : resetTrace ++ (loading ++ last) = before ++ event :: after) :
    driven .reset .high ∈ before ∧ (.fetch, .high) ∉ drives before := by
  have hquiet : busEvents resetTrace = [] := rfl
  obtain ⟨left, right, rfl, rfl⟩ := Bus.exists_of_quiet_ends hquiet hlast hbus hsplit
  rw [Bus.drives_append, List.append_eq_nil_iff] at hloading
  rw [Bus.drives_append, hloading.1]
  exact ⟨List.mem_append_left _ (by simp [resetTrace]), by decide⟩

end Facts

namespace BootRun

variable {device : Bus.Device δ} {readback : Bool} {count : ℕ} {entries : List Entry} {state : δ}
  {run : Bus.Run (Except Halt Unit) δ}

/-- The control lines are driven in the order of a boot, as far as it gets. -/
lemma drives_prefix (h : BootRun device readback count entries state run) :
    drives run.events <+: [(.fetch, .low), (.reset, .low), (.reset, .high), (.fetch, .high)] := by
  cases h with
  | notReset hreset => exact hreset.drives_prefix.trans ⟨[(.fetch, .high)], rfl⟩
  | notLoaded hreset hready hload =>
    rw [Bus.drives_append, hreset.events_of_ok hready, hload.drives_eq_nil]
    exact ⟨[(.fetch, .high)], rfl⟩
  | loaded hreset hready hload _ hstart =>
    rw [Bus.drives_append, Bus.drives_append, hreset.events_of_ok hready, hload.drives_eq_nil,
      drives_loadedNote_cons, hstart.drives_eq]
    exact List.prefix_rfl

/-- Whatever is on the bus comes after the release of the reset line and before the start. -/
lemma released_of_onBus (h : BootRun device readback count entries state run)
    {before after : List Bus.Event} {event : Bus.Event}
    (hevents : run.events = before ++ event :: after) (hbus : event.onBus) :
    driven .reset .high ∈ before ∧ (.fetch, .high) ∉ drives before := by
  cases h with
  | notReset hreset =>
    have hmem : event ∈ before ++ event :: after := by simp
    rw [← hevents] at hmem
    exact (Bus.not_mem_of_busEvents_eq_nil hreset.busEvents_eq_nil hbus hmem).elim
  | notLoaded hreset hready hload =>
    rw [hreset.events_of_ok hready] at hevents
    have hlast : busEvents [] = [] := rfl
    exact released_of_split hload.drives_eq_nil hlast hbus (by rwa [List.append_nil])
  | loaded hreset hready hload _ hstart =>
    rw [hreset.events_of_ok hready] at hevents
    refine released_of_split hload.drives_eq_nil ?_ hbus hevents
    rw [busEvents_loadedNote_cons, hstart.busEvents_eq_nil]

/-- A start is attempted exactly if the reset went well and every block was delivered. -/
lemma start_iff (h : BootRun device readback count entries state run) :
    (.fetch, .high) ∈ drives run.events ↔
      (driven .fetch .low ∈ run.events ∧ driven .reset .low ∈ run.events ∧
          driven .reset .high ∈ run.events) ∧
        AllDelivered readback (Image.blocks entries) (busEvents run.events) := by
  have hquiet : busEvents resetTrace = [] := rfl
  cases h with
  | notReset hreset herror =>
    constructor
    · intro hstart
      exact (hreset.not_started hstart).elim
    · rintro ⟨⟨-, -, hreleased⟩, -⟩
      exact (hreset.not_released_of_error herror hreleased).elim
  | notLoaded hreset _ hload herror =>
    rw [Bus.drives_append, hload.drives_eq_nil, List.append_nil, Bus.busEvents_append,
      hreset.busEvents_eq_nil, List.nil_append, ← hload.ok_iff, herror]
    constructor
    · intro hstart
      exact (hreset.not_started hstart).elim
    · rintro ⟨-, hloaded⟩
      cases hloaded
  | loaded hreset hready hload hloaded hstart =>
    rw [hreset.events_of_ok hready, Bus.busEvents_append, Bus.busEvents_append,
      busEvents_loadedNote_cons, hstart.busEvents_eq_nil, hquiet, List.nil_append, List.append_nil,
      Bus.drives_append, Bus.drives_append, drives_loadedNote_cons, hstart.drives_eq]
    constructor
    · intro _
      exact ⟨by simp [resetTrace], hload.ok_iff.1 hloaded⟩
    · intro _
      simp

/-- A boot ends well exactly if the start did. -/
lemma ok_iff (h : BootRun device readback count entries state run) :
    run.value = .ok () ↔ driven .fetch .high ∈ run.events := by
  cases h with
  | notReset hreset =>
    constructor
    · intro hok
      cases hok
    · intro hstart
      exact (hreset.not_started (Bus.drive_mem_drives hstart)).elim
  | notLoaded hreset _ hload =>
    constructor
    · intro hok
      cases hok
    · intro hstart
      have hdrives := Bus.drive_mem_drives hstart
      rw [Bus.drives_append, hload.drives_eq_nil, List.append_nil] at hdrives
      exact (hreset.not_started hdrives).elim
  | loaded hreset _ hload _ hstart =>
    rw [hstart.ok_iff, List.mem_append, List.mem_append, List.mem_cons]
    constructor
    · intro hmem
      exact .inr (.inr (.inr hmem))
    · rintro (hmem | hmem | hmem | hmem)
      · exact (hreset.not_started (Bus.drive_mem_drives hmem)).elim
      · have hdrives := Bus.drive_mem_drives hmem
        rw [hload.drives_eq_nil] at hdrives
        cases hdrives
      · cases hmem
      · exact hmem

end BootRun

/-! ## Booting from an image -/

section Boot

variable {loader : Loader} {device : Bus.Device δ} {state : δ} {image : String}
  {slots : List Entry}

/-- An image that cannot be read is reported, and nothing happens. -/
lemma play_boot_of_error {error : Image.Error}
    (h : (Image.scan image slots).result = .error error) :
    (boot image slots).2.play loader device state =
      ⟨.error (.error (.image error)), [], state⟩ := by
  simp only [boot, h]
  rfl

/-- An image that can be read is booted with the entries that were read. -/
lemma play_boot_of_ok {count : ℕ} (h : (Image.scan image slots).result = .ok count) :
    (boot image slots).2.play loader device state =
      (Protocol.bootEntries loader.readback count
        ((Image.scan image slots).slots.take count)).play device state := by
  simp only [boot, h]
  exact (follows_bootEntries (Image.count_le_length_of_scan h)).play_eq device state

/-- **Only a loaded core is started.**  A boot from an image that cannot be read gives the error and
leaves the device alone.  Any other boot, on any device, drives the control lines in one order and
breaks off at most; what it does on the bus is done after the reset line was released and before the
start; it attempts the start exactly if the reset went well and every block of the image was
delivered; and it ends well exactly if that start did. -/
theorem boot_starts_loaded_core (loader : Loader) (device : Bus.Device δ) (state : δ)
    (image : String) (slots : List Entry) :
    let run := (boot image slots).2.play loader device state
    match (Image.scan image slots).result with
    | .error error =>
      run.value = .error (.error (.image error)) ∧ run.events = [] ∧ run.device = state
    | .ok count =>
      drives run.events <+: [(.fetch, .low), (.reset, .low), (.reset, .high), (.fetch, .high)] ∧
      (∀ before event after, run.events = before ++ event :: after → event.onBus →
        driven .reset .high ∈ before ∧ (.fetch, .high) ∉ drives before) ∧
      ((.fetch, .high) ∈ drives run.events ↔
        (driven .fetch .low ∈ run.events ∧ driven .reset .low ∈ run.events ∧
            driven .reset .high ∈ run.events) ∧
          AllDelivered loader.readback
            (Image.blocks ((Image.scan image slots).slots.take count)) (busEvents run.events)) ∧
      (run.value = .ok () ↔ driven .fetch .high ∈ run.events) := by
  intro run
  cases hscan : (Image.scan image slots).result with
  | error error =>
    have hplay : run = _ := play_boot_of_error hscan
    rw [hplay]
    exact ⟨rfl, rfl, rfl⟩
  | ok count =>
    have hplay : run = _ := play_boot_of_ok hscan
    have hrun := bootRun_play device loader.readback count
      ((Image.scan image slots).slots.take count) state
    rw [← hplay] at hrun
    exact ⟨hrun.drives_prefix, fun _ _ _ hevents hbus => hrun.released_of_onBus hevents hbus,
      hrun.start_iff, hrun.ok_iff⟩

/-- A bit that is flipped on the way back keeps the core from being started. -/
example :
    let device : Bus.Simulated.State := { settings := { corruptions := [(3, 1)] } }
    let run := (boot "00000010_01020304" [⟨0, 0⟩]).2.play .new Bus.simulated device
    drives run.events = [(.fetch, .low), (.reset, .low), (.reset, .high)] := by
  decide +kernel

end Boot

end SignalCore.Loader
