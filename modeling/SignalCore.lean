import SignalCore.Bus.Trace
import SignalCore.Loader.Session
import SignalCore.Pipeline
import SignalCore.Proofs.Lanes
import SignalCore.Proofs.Fixed.Pairing
import SignalCore.Proofs.Convolution.Agreement
import SignalCore.Proofs.Image.Scan
import SignalCore.Proofs.Loader.Honest
import SignalCore.Proofs.Matrix.Embedding
import SignalCore.Proofs.Matrix.Toeplitz
import SignalCore.Proofs.Convolution.Symmetry
import SignalCore.Proofs.Loader.Call
import SignalCore.Proofs.Bus.Fault
import SignalCore.Proofs.Loader.Fault
import SignalCore.Proofs.Loader.Retry
import SignalCore.Proofs.Image.Entry
import SignalCore.Proofs.Image.Writing
import SignalCore.Proofs.Image.Cut
import SignalCore.Proofs.Image.Run
import SignalCore.Proofs.Loader.Wire
import SignalCore.Proofs.Loader.Readback
import SignalCore.Proofs.Loader.Bounds
import SignalCore.Proofs.Bus.Bits
import SignalCore.Proofs.Matrix.Ending
import SignalCore.Proofs.Matrix.Transposition
import SignalCore.Proofs.Convolution.Ending
import SignalCore.Proofs.Convolution.Taps
import SignalCore.Proofs.Convolution.Delay
import SignalCore.Proofs.Overflow
