import ChipEight.Machine.Transfer
import ChipEight.Proofs.Guarded.Machine
import ChipEight.Proofs.Lemmas.Transfer

/-!
# Memory with every test made

An access to memory is made through a slice. Whether the span ends inside memory is asked of the program, and a span that does not
is a fault; whether the slice then lies in the bytes, and whether a copy fills it, is tested. The runs of registers that use these
accesses count addresses and registers upwards, with a test at each sum.
-/

namespace ChipEight.Guarded

/-! ## Slices -/

/-- The end of a span that ends inside memory. A sum that its type does not hold ends outside, and is no trap. -/
def spanEnd (address length : Nat) : Except Fault Nat :=
  if address + length < addressLimit ∧ address + length ≤ Memory.size then .ok (address + length)
  else .error (.outOfRange (max address Memory.size))

/-- The bytes of a span. -/
def slice (m : Memory) (address length : Nat) : Guarded (Except Fault (List UInt8)) := do
  match spanEnd address length with
  | .error f => return .error f
  | .ok stop =>
    if address ≤ stop ∧ stop ≤ m.bytes.size then
      return .ok ((List.range (stop - address)).map fun i => m.peek (address + i))
    else .error (.slice address stop m.bytes.size)

/-- A slice does not trap. -/
theorem slice_eq (m : Memory) (address length : Nat) : slice m address length = .ok (m.read address length) := by
  have hsize : Memory.size = 0x10000 := rfl
  have hlimit : addressLimit = 0x10000000000000000 := rfl
  have hbytes : m.bytes.size = 0x10000 := m.size_bytes
  rw [slice, Memory.read_eq]
  unfold spanEnd
  by_cases h : address + length ≤ Memory.size
  · rw [if_pos h, if_pos ⟨by omega, h⟩]
    dsimp only
    rw [if_pos ⟨by omega, by omega⟩, Nat.add_sub_cancel_left]
    rfl
  · rw [if_neg h, if_neg fun hb => h hb.2]
    rfl

/-! ## Accesses -/

variable {α : Type}

/-- What an access makes of the bytes of a span. -/
def access (m : Memory) (address length : Nat) (use : List UInt8 → Guarded α) : Guarded (Except Fault α) := do
  match ← slice m address length with
  | .error f => return .error f
  | .ok bytes => return .ok (← use bytes)

/-- The word at an address, from a slice of two bytes. -/
def word (m : Memory) (address : Nat) : Guarded (Except Fault Opcode) :=
  access m address 2 fun bytes => return .ofBytes (← entry bytes 0) (← entry bytes 1)

/-- The byte at an address, from a slice of one byte. -/
def byte (m : Memory) (address : Nat) : Guarded (Except Fault UInt8) := access m address 1 fun bytes => entry bytes 0

/-- Memory with the first byte of a slice of one byte changed. -/
def setByte (m : Memory) (address : Nat) (value : UInt8) : Guarded (Except Fault Memory) :=
  access m address 1 fun bytes => do
    let _ ← entry bytes 0
    return m.poke address value

/-- Memory with a run of bytes copied to the slice it fills. -/
def write (m : Memory) (address : Nat) (data : List UInt8) : Guarded (Except Fault Memory) :=
  access m address data.length fun bytes =>
    if bytes.length = data.length then return m.pokeAll address data else .error (.copy bytes.length data.length)

/-- Memory with a program loaded at an address. -/
def load (m : Memory) (program : List UInt8) (address : UInt16) : Guarded (Except Fault Memory) := do
  if Memory.isExecutable address.toNat then
    let room ← difference Memory.programLimit address.toNat
    if room < program.length then return .error (.programTooLarge program.length room)
    else
      match ← write m address.toNat program with
      | .error f => return .error f
      | .ok m => return .ok { m with programAddress := address, programLength := program.length }
  else return .error (.outOfRange address.toNat)

/-- The first address behind the loaded program. -/
def programEnd (m : Memory) : Guarded Nat := sum addressLimit m.programAddress.toNat m.programLength

/-- An access does not trap if what it makes of the bytes of its span does not. -/
theorem access_eq {m : Memory} {address length : Nat} {use : List UInt8 → Guarded α} {a : α}
    (h : use ((List.range length).map fun i => m.peek (address + i)) = .ok a) :
    access m address length use =
      .ok (if address + length ≤ Memory.size then .ok a else .error (.outOfRange (max address Memory.size))) := by
  rw [access, slice_eq, ok_bind, Memory.read_eq]
  by_cases hs : address + length ≤ Memory.size
  · rw [if_pos hs, if_pos hs]
    dsimp only
    rw [h]
    rfl
  · rw [if_neg hs, if_neg hs]
    rfl

/-- To read a word does not trap. -/
theorem word_eq (m : Memory) (address : Nat) : word m address = .ok (m.word address) := by
  rw [Memory.word_eq]
  exact access_eq rfl

/-- To read a byte does not trap. -/
theorem byte_eq (m : Memory) (address : Nat) : byte m address = .ok (m.byte address) := by
  rw [Memory.byte_eq]
  exact access_eq rfl

/-- To write a byte does not trap. -/
theorem setByte_eq (m : Memory) (address : Nat) (value : UInt8) :
    setByte m address value = .ok (m.setByte address value) := by
  rw [Memory.setByte_eq]
  exact access_eq rfl

/-- To write a run of bytes does not trap: the slice is as long as the run. -/
theorem write_eq (m : Memory) (address : Nat) (data : List UInt8) : write m address data = .ok (m.write address data) := by
  rw [Memory.write_eq]
  refine access_eq (if_pos ?_)
  rw [List.length_map, List.length_range]

/-- To load a program does not trap: the room behind an executable address is not negative. -/
theorem load_eq (m : Memory) (program : List UInt8) (address : UInt16) :
    load m program address = .ok (m.load program address) := by
  have hlimit : Memory.programLimit = 0x1000 := rfl
  have hsize : Memory.size = 0x10000 := rfl
  unfold load Memory.load
  by_cases he : Memory.isExecutable address.toNat = true
  · have hlt := ((Memory.isExecutable_iff _).mp he).2
    rw [if_pos he, if_pos he, difference_eq (by omega), ok_bind]
    by_cases hroom : Memory.programLimit - address.toNat < program.length
    · rw [if_pos hroom, if_neg (by omega)]
      rfl
    · rw [if_neg hroom, if_pos (by omega), write_eq, ok_bind, Memory.write_eq, if_pos (by omega)]
      rfl
  · rw [if_neg he, if_neg he]
    rfl

/-! ## Runs of bytes at the index -/

/-- Moves the index past a run of registers, unless the dialect keeps it. -/
def advance (d : Dialect) (r : Registers) (lo hi : Nat) : Guarded Registers := do
  if d.keepsIndex then return r
  else
    let count ← sum addressLimit (← difference hi lo) 1
    return r.setIndex (r.index + UInt16.ofNat count)

/-- Writes the decimal digits of a byte at the index. -/
def storeDecimal (d : Dialect) (m : Memory) (r : Registers) (value : UInt8) : Guarded (Except Fault (Memory × Registers)) := do
  match ← write m r.index.toNat (Transfer.decimalDigits value) with
  | .error f => return .error f
  | .ok m => return .ok (m, Transfer.advance d r 3)

/-- Writes registers to memory from an address on. -/
def storeAll (r : Registers) (m : Memory) (address : Nat) : List Nat → Guarded (Memory × Option Fault)
  | [] => return (m, none)
  | x :: rest => do
    match ← setByte m address (← register r x) with
    | .ok m => storeAll r m (← sum addressLimit address 1) rest
    | .error f => return (m, some f)

/-- Reads registers from memory from an address on. -/
def restoreAll (m : Memory) (r : Registers) (address : Nat) : List Nat → Guarded (Registers × Option Fault)
  | [] => return (r, none)
  | x :: rest => do
    match ← byte m address with
    | .ok value => restoreAll m (← withRegister r x value) (← sum addressLimit address 1) rest
    | .error f => return (r, some f)

/-- Stores the registers from `lo` to `hi` at the index. -/
def store (d : Dialect) (m : Memory) (r : Registers) (lo hi : Nat) : Guarded (Memory × Except Fault Registers) := do
  match ← storeAll r m r.index.toNat (List.range' lo (hi + 1 - lo)) with
  | (m, none) => return (m, .ok (← advance d r lo hi))
  | (m, some f) => return (m, .error f)

/-- Restores the registers from `lo` to `hi` from the index. -/
def restore (d : Dialect) (m : Memory) (r : Registers) (lo hi : Nat) : Guarded (Registers × Option Fault) := do
  match ← restoreAll m r r.index.toNat (List.range' lo (hi + 1 - lo)) with
  | (r, none) => return (← advance d r lo hi, none)
  | (r, some f) => return (r, some f)

/-- Where the glyph of a digit lies, with the product and the sum in sixteen bits. -/
def glyphAddress (digit : UInt8) : Guarded UInt16 := do
  let offset ← product 0x10000 (digit &&& 0xf).toNat Font.glyphBytes
  return UInt16.ofNat (← sum 0x10000 Font.address.toNat offset)

/-- To move the index does not trap if the run is not empty. -/
theorem advance_eq (d : Dialect) (r : Registers) {lo hi : Register} (h : lo ≤ hi) :
    advance d r lo.val hi.val = .ok (Transfer.advance d r (hi.val - lo.val + 1)) := by
  have hle : lo.val ≤ hi.val := h
  have hlt := hi.isLt
  have hlimit : addressLimit = 0x10000000000000000 := rfl
  unfold advance Transfer.advance
  split
  · rfl
  · rw [difference_eq hle, ok_bind, sum_eq (by omega)]
    rfl

/-- To write decimal digits does not trap. -/
theorem storeDecimal_eq (d : Dialect) (m : Memory) (r : Registers) (value : UInt8) :
    storeDecimal d m r value = .ok (Transfer.storeDecimal d m r value) := by
  rw [storeDecimal, write_eq, ok_bind, Transfer.storeDecimal]
  cases m.write r.index.toNat (Transfer.decimalDigits value) <;> rfl

/-- A run of registers to memory does not trap: its addresses are counted only up to the end of memory. -/
theorem storeAll_eq (r : Registers) (m : Memory) (address : Nat) (xs : List Register) :
    storeAll r m address (xs.map Fin.val) = .ok (Transfer.storeAll r m address xs) := by
  have hlimit : addressLimit = 0x10000000000000000 := rfl
  have hsize : Memory.size = 0x10000 := rfl
  induction xs generalizing m address with
  | nil => rfl
  | cons x rest ih =>
    rw [List.map_cons, storeAll, Transfer.storeAll, register_val, ok_bind, setByte_eq, ok_bind, Memory.setByte_eq]
    by_cases h : address + 1 ≤ Memory.size
    · rw [if_pos h]
      dsimp only
      rw [sum_eq (by omega), ok_bind, ih]
    · rw [if_neg h]
      rfl

/-- A run of registers from memory does not trap. -/
theorem restoreAll_eq (m : Memory) (r : Registers) (address : Nat) (xs : List Register) :
    restoreAll m r address (xs.map Fin.val) = .ok (Transfer.restoreAll m r address xs) := by
  have hlimit : addressLimit = 0x10000000000000000 := rfl
  have hsize : Memory.size = 0x10000 := rfl
  induction xs generalizing r address with
  | nil => rfl
  | cons x rest ih =>
    rw [List.map_cons, restoreAll, Transfer.restoreAll, byte_eq, ok_bind, Memory.byte_eq]
    by_cases h : address + 1 ≤ Memory.size
    · rw [if_pos h]
      dsimp only
      rw [withRegister_val, ok_bind, sum_eq (by omega), ok_bind, ih]
    · rw [if_neg h]
      rfl

/-- To store a range of registers does not trap. -/
theorem store_eq (d : Dialect) (m : Memory) (r : Registers) {lo hi : Register} (h : lo ≤ hi) :
    store d m r lo.val hi.val = .ok (Transfer.store d m r lo hi) := by
  rw [store, ← Transfer.map_val_registersFrom, storeAll_eq, ok_bind, Transfer.store]
  rcases Transfer.storeAll r m r.index.toNat (Transfer.registersFrom lo hi) with ⟨m, _ | f⟩
  · dsimp only
    rw [advance_eq d r h]
    rfl
  · rfl

/-- To restore a range of registers does not trap. -/
theorem restore_eq (d : Dialect) (m : Memory) (r : Registers) {lo hi : Register} (h : lo ≤ hi) :
    restore d m r lo.val hi.val = .ok (Transfer.restore d m r lo hi) := by
  rw [restore, ← Transfer.map_val_registersFrom, restoreAll_eq, ok_bind, Transfer.restore]
  rcases Transfer.restoreAll m r r.index.toNat (Transfer.registersFrom lo hi) with ⟨r, _ | f⟩
  · dsimp only
    rw [advance_eq d r h]
    rfl
  · rfl

/-- The address of a glyph does not trap: the last glyph starts at 0x104b. -/
theorem glyphAddress_eq (digit : UInt8) : glyphAddress digit = .ok (Font.glyphAddress digit) := by
  have haddress : Font.address.toNat = 0x1000 := rfl
  have hlow : (digit &&& 0xf).toNat = digit.toNat % 16 := by
    rw [UInt8.toNat_and]
    exact Nat.and_two_pow_sub_one_eq_mod digit.toNat 4
  have hoffset : digit.toNat % 16 * Font.glyphBytes ≤ 75 := by
    rw [show Font.glyphBytes = 5 from rfl]
    omega
  rw [glyphAddress, hlow, product_eq (by omega), ok_bind, sum_eq (by omega), ok_bind, UInt16.ofNat_add, UInt16.ofNat_toNat]
  rfl

end ChipEight.Guarded
