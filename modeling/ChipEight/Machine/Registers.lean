import ChipEight.Instruction.Opcode

/-!
# The registers a program sees

Sixteen byte registers, the index register I, and the program counter. VF is an ordinary register that instructions with a
carry, a borrow or a collision also write; they write it last, so as a destination it always ends up with the flag.
-/

namespace ChipEight

/-- The registers. The range of the index is checked where it is used, not here. -/
structure Registers where
  v : Vector UInt8 16
  index : UInt16
  pc : UInt16
  deriving DecidableEq

namespace Registers

/-- All registers zero but for the program counter. -/
def start (pc : UInt16) : Registers := ⟨Vector.replicate 16 0, 0, pc⟩

/-- The value of a register. -/
def get (r : Registers) (x : Register) : UInt8 := r.v[x.val]

/-- The registers with one of them changed. -/
def set (r : Registers) (x : Register) (value : UInt8) : Registers := { r with v := r.v.set x.val value }

/-- The registers with the flag 1 or 0. -/
def setFlag (r : Registers) (flag : Bool) : Registers := r.set flagRegister (if flag then 1 else 0)

/-- The registers with another index. -/
def setIndex (r : Registers) (index : UInt16) : Registers := { r with index := index }

/-- The registers with another program counter. -/
def setPc (r : Registers) (pc : UInt16) : Registers := { r with pc := pc }

theorem get_set (r : Registers) (x y : Register) (value : UInt8) :
    (r.set x value).get y = if x = y then value else r.get y := by
  simp [get, set, Vector.getElem_set, Fin.ext_iff]

@[simp] theorem get_set_self (r : Registers) (x : Register) (value : UInt8) : (r.set x value).get x = value := by
  simp [get_set]

@[simp] theorem index_set (r : Registers) (x : Register) (value : UInt8) : (r.set x value).index = r.index := rfl

@[simp] theorem pc_set (r : Registers) (x : Register) (value : UInt8) : (r.set x value).pc = r.pc := rfl

@[simp] theorem get_setIndex (r : Registers) (index : UInt16) (x : Register) : (r.setIndex index).get x = r.get x := rfl

@[simp] theorem get_setPc (r : Registers) (pc : UInt16) (x : Register) : (r.setPc pc).get x = r.get x := rfl

end Registers

end ChipEight
