import ChipEight.Machine.Arithmetic

/-!
# What arithmetic leaves alone

Operations on the byte registers touch neither the index nor the program counter.
-/

namespace ChipEight.Registers

@[simp] theorem pc_setPc (r : Registers) (pc : UInt16) : (r.setPc pc).pc = pc := rfl

@[simp] theorem index_setPc (r : Registers) (pc : UInt16) : (r.setPc pc).index = r.index := rfl

@[simp] theorem pc_setIndex (r : Registers) (index : UInt16) : (r.setIndex index).pc = r.pc := rfl

@[simp] theorem pc_setFlag (r : Registers) (flag : Bool) : (r.setFlag flag).pc = r.pc := rfl

@[simp] theorem index_setFlag (r : Registers) (flag : Bool) : (r.setFlag flag).index = r.index := rfl

@[simp] theorem get_setFlag_of_ne (r : Registers) (flag : Bool) {x : Register} (h : x ≠ flagRegister) :
    (r.setFlag flag).get x = r.get x := by
  rw [setFlag, get_set, if_neg (Ne.symm h)]

theorem get_flag_setFlag (r : Registers) (flag : Bool) : (r.setFlag flag).get flagRegister = 1 ↔ flag = true := by
  cases flag <;> simp [setFlag]

/-- The last flag counts. -/
theorem setFlag_setFlag (r : Registers) (flag flag' : Bool) : (r.setFlag flag).setFlag flag' = r.setFlag flag' := by
  simp [setFlag, set]

@[simp] theorem pc_add (r : Registers) (x : Register) (value : UInt8) : (r.add x value).pc = r.pc := rfl

@[simp] theorem pc_subtract (r : Registers) (x : Register) (value : UInt8) : (r.subtract x value).pc = r.pc := rfl

@[simp] theorem pc_reverseSubtract (r : Registers) (x : Register) (value : UInt8) :
    (r.reverseSubtract x value).pc = r.pc := rfl

@[simp] theorem pc_shiftRight (r : Registers) (d : Dialect) (x y : Register) : (r.shiftRight d x y).pc = r.pc := by
  unfold shiftRight
  split <;> rfl

@[simp] theorem pc_shiftLeft (r : Registers) (d : Dialect) (x y : Register) : (r.shiftLeft d x y).pc = r.pc := by
  unfold shiftLeft
  split <;> rfl

@[simp] theorem pc_operate (r : Registers) (d : Dialect) (op : Operation) (x y : Register) :
    (r.operate d op x y).pc = r.pc := by
  cases op <;> simp [operate]

end ChipEight.Registers
