import SignalCore.Convolution.Saturating
import SignalCore.Convolution.Wrapping
import SignalCore.Matrix.Complex
import SignalCore.Matrix.Real
import SignalCore.Samples.Arithmetic
import SignalCore.Samples.Conversion

/-!
# Pipelines of kernels

A pipeline passes one register of samples through a sequence of kernels that share one scratch
buffer.  A stage that fails leaves a remark and the sequence goes on.
-/

namespace SignalCore.Pipeline

/-! ## Stages -/

/-- One kernel with its parameters. -/
inductive Stage where
  | offset (amount : Int16)
  /-- Convolve with a kernel in 32 bits. -/
  | convolveWrapping (kernel : Array Int16)
  /-- Convolve with a kernel in 64 bits, with both layouts in the scratch buffer. -/
  | convolveSaturating (kernel : Array Int16)
  /-- Shift the samples as 8-bit ones. -/
  | shift (bits : Int8)
  /-- Multiply the samples by a floating factor as 8-bit ones. -/
  | gain (factor : Float32)
  /-- Take the magnitudes of the samples as 32-bit ones, and leave the register alone. -/
  | magnitude
  /-- Multiply the register, as a matrix of the given shape, by another. -/
  | multiplyReal (rows inner : UInt16) (right : Matrix)
  | multiplyComplex (rows inner : UInt16) (right : Matrix)

/-- The samples that run through a pipeline. -/
structure State where
  register : Array Int16
  scratch : Array Int16

/-- What a stage leaves to be seen beside the register. -/
inductive Remark where
  | none
  /-- The stage asked for more samples than a buffer holds. -/
  | outOfBounds
  | sizeMismatch (mismatch : Matrix.SizeMismatch)
  /-- The products that a gain stage computed. -/
  | products (values : Array Float32)
  /-- The magnitudes that were taken. -/
  | magnitudes (values : Array Int32)

/-! ## Running a stage -/

/-- A destination of the size of some samples, for results of one sample each. -/
private def room {α : Type} (zero : α) (source : Array Int16) : Array α :=
  Array.replicate source.size zero

/-- The remark on a kernel that never refuses its input. -/
private def remarkOn {β : Type} : Outcome Empty β → Remark
  | .done _ => .none
  | .outOfBounds _ => .outOfBounds

/-- The samples as 8-bit ones. -/
def narrow (samples : Array Int16) : Outcome Empty (Array Int8) :=
  Samples.mapInto Q15.toQ7 samples (room 0 samples)

/-- Eight-bit samples as 16-bit ones. -/
def widen (samples : Array Int8) : Outcome Empty (Array Int16) :=
  Samples.mapInto Q7.toQ15 samples (Array.replicate samples.size 0)

/-- Convolve in 64 bits; the first part of the scratch buffer takes the longer operand and the
rest the shorter one. -/
def convolveSaturating (lanes : Lanes) (state : State) (kernel : Array Int16) : Remark × State :=
  let register :=
    Array.replicate (Convolution.outputLength state.register.size kernel.size) 0
  let split := Convolution.paddedLength state.register.size kernel.size
  if state.scratch.size < split then (.outOfBounds, { state with register })
  else
    let outcome := Convolution.saturating lanes state.register kernel
      { destination := register
        padded := state.scratch.extract 0 split
        reversed := state.scratch.extract split state.scratch.size }
    let buffers := outcome.buffers
    (remarkOn outcome, ⟨buffers.destination, buffers.padded ++ buffers.reversed⟩)

/-- Multiply the register by a matrix with a kernel for elements of `width` samples. -/
def multiply (width : Nat)
    (product : Matrix → Matrix → Matrix.Buffers → Outcome Matrix.SizeMismatch Matrix.Buffers)
    (state : State) (rows inner : UInt16) (right : Matrix) : Remark × State :=
  let cells := width * (rows.toNat * right.cols.toNat)
  let destination : Matrix := ⟨⟨rows, right.cols⟩, Array.replicate cells 0⟩
  let outcome := product ⟨⟨rows, inner⟩, state.register⟩ right ⟨destination, state.scratch⟩
  let scratch := outcome.buffers.scratch
  match outcome with
  | .done buffers => (.none, ⟨buffers.destination.data, scratch⟩)
  | .refused mismatch _ => (.sizeMismatch mismatch, { state with scratch })
  | .outOfBounds _ => (.outOfBounds, { state with scratch })

/-- Run one stage. -/
def run (profile : Profile) (state : State) : Stage → Remark × State
  | .offset amount =>
    let outcome := Samples.offset profile.lanes state.register amount (room 0 state.register)
    (remarkOn outcome, { state with register := outcome.buffers })
  | .convolveWrapping kernel =>
    let length := Convolution.outputLength state.register.size kernel.size
    let outcome := Convolution.wrapping profile.lanes state.register kernel
      (Array.replicate length 0)
    (remarkOn outcome, { state with register := outcome.buffers })
  | .convolveSaturating kernel => convolveSaturating profile.lanes state kernel
  | .shift bits =>
    let samples := (narrow state.register).buffers
    let shifted := (Samples.shift samples bits (Array.replicate samples.size 0)).buffers
    (.none, { state with register := (widen shifted).buffers })
  | .gain factor =>
    let samples := (narrow state.register).buffers
    let floats := (Samples.mapInto Q7.toFloat32 samples (room 0 state.register)).buffers
    let factors := Array.replicate samples.size factor
    let products := (Samples.multiply floats factors (room 0 state.register)).buffers
    let scaled :=
      (Samples.mapInto (Q7.ofFloat32 profile.rounding) products (room 0 state.register)).buffers
    (.products products, { state with register := (widen scaled).buffers })
  | .magnitude =>
    let wide := (Samples.mapInto Q15.toQ31 state.register (room 0 state.register)).buffers
    let magnitudes := (Samples.mapInto Q31.abs wide (room 0 state.register)).buffers
    (.magnitudes magnitudes, state)
  | .multiplyReal rows inner right =>
    multiply 1 (Matrix.multiplyReal profile.lanes) state rows inner right
  | .multiplyComplex rows inner right =>
    multiply 2 (Matrix.multiplyComplex profile.lanes) state rows inner right

/-- Run stages in order.  Gives the remark on each stage with the register after it, and the
scratch buffer at the end. -/
def runAll (profile : Profile) (state : State) :
    List Stage → List (Remark × Array Int16) × Array Int16
  | [] => ([], state.scratch)
  | stage :: rest =>
    let (remark, state) := run profile state stage
    let tail := runAll profile state rest
    ((remark, state.register) :: tail.1, tail.2)

end SignalCore.Pipeline
