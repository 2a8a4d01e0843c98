import ChipEight.Main
import ChipEight.Proofs.Lemmas.Decode
import ChipEight.Proofs.Lemmas.Flow
import ChipEight.Proofs.Lemmas.Registers
import ChipEight.Proofs.Lemmas.Transfer
import ChipEight.Proofs.Lemmas.Execute
import ChipEight.Proofs.Lemmas.Range
import ChipEight.Proofs.Lemmas.Halts
import ChipEight.Proofs.Lemmas.Alike
import ChipEight.Proofs.Lemmas.Turns
import ChipEight.Proofs.Lemmas.Timers
import ChipEight.Proofs.Range
import ChipEight.Proofs.Halting
import ChipEight.Proofs.Faults
import ChipEight.Proofs.NoTrap
import ChipEight.Proofs.Calls
import ChipEight.Proofs.Interleaving
import ChipEight.Proofs.Lemmas.Schedule
import ChipEight.Proofs.Merge
import ChipEight.Proofs.Lemmas.Drive
import ChipEight.Proofs.Replay
import ChipEight.Proofs.Lemmas.Writes
import ChipEight.Proofs.Ownership
import ChipEight.Proofs.Devices
import ChipEight.Proofs.Trace
import ChipEight.Proofs.Dialects
import ChipEight.Proofs.Tone
import ChipEight.Proofs.Image
import ChipEight.Proofs.Latch
import ChipEight.Proofs.Plotting
import ChipEight.Proofs.Blit
import ChipEight.Proofs.Redrawing
import ChipEight.Proofs.ByteMap
import ChipEight.Proofs.Cancel
import ChipEight.Proofs.Blocks
import ChipEight.Proofs.Loading
import ChipEight.Proofs.RandomBytes
import ChipEight.Proofs.Waiting
import ChipEight.Proofs.Halted
import ChipEight.Proofs.Arithmetic
import ChipEight.Proofs.Lemmas.Mnemonic
import ChipEight.Proofs.Lemmas.Listing
import ChipEight.Proofs.Labels
import ChipEight.Proofs.Readback
import ChipEight.Proofs.Agreement
import ChipEight.Proofs.Lemmas.Encoding
import ChipEight.Proofs.Mnemonics
import ChipEight.Proofs.Presenting
import ChipEight.Proofs.Frames
import ChipEight.Proofs.Guarded.Schedule
import ChipEight.Proofs.Horizon
