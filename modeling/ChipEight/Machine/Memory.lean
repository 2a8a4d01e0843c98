import ChipEight.Fault
import ChipEight.Instruction.Opcode
import ChipEight.Machine.Font

/-!
# Memory

The whole 16-bit address space as one run of bytes. Programs are loaded into and run in the region from 0x200 up to 0x1000, the
font lies just above it, and the rest is data that only the index register reaches. There is no protection: a program may change
itself or the font.

Addresses are natural numbers, since an index plus an offset can pass the end of memory. An access names a span, an address and a
length; it succeeds exactly when the span ends inside memory, the empty span included, and a failed access changes nothing.
-/

namespace ChipEight

namespace Memory

/-- How many bytes there are. -/
def size : Nat := 0x10000

/-- Where programs usually start, and the lowest address that can be executed. -/
def programStart : UInt16 := 0x200

/-- The first address above the region that can be executed. -/
def programLimit : Nat := 0x1000

/-- Whether the program counter may be sent to an address. -/
def isExecutable (address : Nat) : Bool := decide (programStart.toNat ≤ address) && decide (address < programLimit)

/-- The bytes before any program is loaded: zeros around the font. -/
def blank : ByteArray :=
  ⟨(List.replicate Font.address.toNat 0 ++ Font.glyphs ++
    List.replicate (size - Font.address.toNat - Font.glyphs.length) 0).toArray⟩

theorem size_blank : blank.size = size := by
  show (List.toArray _).size = _
  rw [List.size_toArray, List.length_append, List.length_append, List.length_replicate, List.length_replicate]
  rfl

end Memory

/-- The bytes of the machine, and where in them the loaded program lies. -/
structure Memory where
  bytes : ByteArray
  size_bytes : bytes.size = Memory.size
  /-- The address of the loaded program. -/
  programAddress : UInt16
  /-- The length of the loaded program. -/
  programLength : Nat

namespace Memory

/-- Memory with the font and no program. -/
def fresh : Memory := ⟨blank, size_blank, programStart, 0⟩

instance : Inhabited Memory := ⟨fresh⟩

/-- The first address behind the loaded program. To reach it ends the program. -/
def programEnd (m : Memory) : Nat := m.programAddress.toNat + m.programLength

/-- The byte at an address, zero outside memory. -/
def peek (m : Memory) (address : Nat) : UInt8 :=
  if h : address < size then
    have : address < m.bytes.size := m.size_bytes ▸ h
    m.bytes[address]
  else 0

/-- Memory with the byte at an address changed, unchanged if the address is outside. -/
def poke (m : Memory) (address : Nat) (value : UInt8) : Memory :=
  if h : address < size then
    have inside : address < m.bytes.size := m.size_bytes ▸ h
    { m with
      bytes := m.bytes.set address value
      size_bytes := (Array.size_set inside).trans m.size_bytes }
  else m

/-- Memory with a run of bytes written from an address on, one after the other. -/
def pokeAll (m : Memory) (address : Nat) : List UInt8 → Memory
  | [] => m
  | value :: rest => (m.poke address value).pokeAll (address + 1) rest

/-- Whether `length` bytes from an address on lie in memory. If not, the fault names the first address that does not. -/
def checkSpan (address length : Nat) : Except Fault Unit :=
  if address + length ≤ size then .ok () else .error (.outOfRange (max address size))

/-- The bytes of a span. -/
def read (m : Memory) (address length : Nat) : Except Fault (List UInt8) := do
  checkSpan address length
  return (List.range length).map fun i => m.peek (address + i)

/-- Memory with a run of bytes written to the span it fills. -/
def write (m : Memory) (address : Nat) (data : List UInt8) : Except Fault Memory := do
  checkSpan address data.length
  return m.pokeAll address data

/-- Memory with all bytes of a span set to one value. -/
def fill (m : Memory) (address length : Nat) (value : UInt8) : Except Fault Memory := do
  checkSpan address length
  return m.pokeAll address (List.replicate length value)

/-- The word at an address, high byte first. -/
def word (m : Memory) (address : Nat) : Except Fault Opcode := do
  checkSpan address 2
  return .ofBytes (m.peek address) (m.peek (address + 1))

/-- The byte at an address. -/
def byte (m : Memory) (address : Nat) : Except Fault UInt8 := do
  checkSpan address 1
  return m.peek address

/-- Memory with the byte at an address changed. -/
def setByte (m : Memory) (address : Nat) (value : UInt8) : Except Fault Memory := do
  checkSpan address 1
  return m.poke address value

/-- Memory with a program loaded at an address. The address must be executable and the program must end before the region does;
otherwise nothing changes. -/
def load (m : Memory) (program : List UInt8) (address : UInt16) : Except Fault Memory :=
  if isExecutable address.toNat then
    let room := programLimit - address.toNat
    if program.length ≤ room then
      .ok { m.pokeAll address.toNat program with programAddress := address, programLength := program.length }
    else .error (.programTooLarge program.length room)
  else .error (.outOfRange address.toNat)

theorem peek_poke (m : Memory) (address other : Nat) (value : UInt8) (h : address < size) :
    (m.poke address value).peek other = if address = other then value else m.peek other := by
  have inside : address < m.bytes.size := m.size_bytes ▸ h
  simp only [poke, peek, h, dite_true]
  by_cases ho : other < size
  · have otherInside : other < m.bytes.size := m.size_bytes ▸ ho
    simp only [ho, dite_true, ByteArray.getElem_eq_getElem_data]
    exact Array.getElem_set inside ((Array.size_set inside).symm ▸ otherInside)
  · have hne : address ≠ other := fun e => ho (e ▸ h)
    simp [ho, hne]

@[simp] theorem programEnd_poke (m : Memory) (address : Nat) (value : UInt8) :
    (m.poke address value).programEnd = m.programEnd := by
  unfold poke programEnd
  split <;> rfl

end Memory

end ChipEight
