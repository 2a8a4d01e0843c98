import ChipEight.Dialect
import ChipEight.Machine.Memory
import ChipEight.Machine.Registers

/-!
# Runs of bytes between registers and memory

The instructions that store or load several bytes at the index. Decimal digits are written all or none. Registers are moved one
by one in ascending order, and a move that would leave memory ends the run there: what was moved before stays moved.
-/

namespace ChipEight.Transfer

/-- Moves the index past a run of bytes, unless the dialect keeps it. -/
def advance (d : Dialect) (r : Registers) (count : Nat) : Registers :=
  if d.keepsIndex then r else r.setIndex (r.index + UInt16.ofNat count)

/-- Hundreds, tens and ones of a byte. -/
def decimalDigits (value : UInt8) : List UInt8 := [value / 100, value / 10 % 10, value % 10]

/-- Writes the decimal digits of a byte at the index. -/
def storeDecimal (d : Dialect) (m : Memory) (r : Registers) (value : UInt8) : Except Fault (Memory × Registers) := do
  let m ← m.write r.index.toNat (decimalDigits value)
  .ok (m, advance d r 3)

/-- The registers from `lo` to `hi`, ascending. -/
def registersFrom (lo hi : Register) : List Register :=
  (List.finRange 16).filter fun x => decide (lo ≤ x) && decide (x ≤ hi)

/-- Writes registers to memory from an address on: the memory with what could be written, and the fault that ended the run, if
one did. -/
def storeAll (r : Registers) (m : Memory) (address : Nat) : List Register → Memory × Option Fault
  | [] => (m, none)
  | x :: rest =>
    match m.setByte address (r.get x) with
    | .ok m => storeAll r m (address + 1) rest
    | .error f => (m, some f)

/-- Reads registers from memory from an address on: the registers with what could be read, and the fault that ended the run, if
one did. -/
def restoreAll (m : Memory) (r : Registers) (address : Nat) : List Register → Registers × Option Fault
  | [] => (r, none)
  | x :: rest =>
    match m.byte address with
    | .ok value => restoreAll m (r.set x value) (address + 1) rest
    | .error f => (r, some f)

/-- Stores the registers from `lo` to `hi` at the index. The index moves only after a whole run. -/
def store (d : Dialect) (m : Memory) (r : Registers) (lo hi : Register) : Memory × Except Fault Registers :=
  match storeAll r m r.index.toNat (registersFrom lo hi) with
  | (m, none) => (m, .ok (advance d r (hi.val - lo.val + 1)))
  | (m, some f) => (m, .error f)

/-- Restores the registers from `lo` to `hi` from the index. The index moves only after a whole run. -/
def restore (d : Dialect) (m : Memory) (r : Registers) (lo hi : Register) : Registers × Option Fault :=
  match restoreAll m r r.index.toNat (registersFrom lo hi) with
  | (r, none) => (advance d r (hi.val - lo.val + 1), none)
  | (r, some f) => (r, some f)

end ChipEight.Transfer
