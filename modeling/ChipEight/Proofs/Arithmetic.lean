import ChipEight.Proofs.Lemmas.Writes

/-!
# Arithmetic in numbers

What the operations on registers compute, in whole numbers: a result in Vx and, for some of them, a flag in VF, both from the values
that Vx and Vy had before (`Registers.arithmetic_in_numbers`). The flag is written after the result, so when Vx is VF the flag is all
that is left. Nothing in this depends on whether Vx, Vy and VF are different registers.
-/

namespace ChipEight

namespace Operation

/-- The result of an operation, from the values of Vx and Vy. -/
def result (d : Dialect) (a b : Nat) : Operation → Int
  | .copy => b
  | .or => (a ||| b : Nat)
  | .and => (a &&& b : Nat)
  | .xor => (a ^^^ b : Nat)
  | .add => ((a : Int) + b) % 256
  | .subtract => ((a : Int) - b) % 256
  | .reverseSubtract => ((b : Int) - a) % 256
  | .shiftRight => if d.shiftsInPlace then (a : Int) / 2 else (b : Int) / 2
  | .shiftLeft => if d.shiftsInPlace then 2 * (a : Int) % 256 else 2 * (b : Int) % 256

/-- The flag of an operation, if it has one: the carry, that there was no borrow, or the bit that fell out of a shift in place. -/
def flag? (d : Dialect) (a b : Nat) : Operation → Option Nat
  | .copy | .or | .and | .xor => none
  | .add => some (if 255 < a + b then 1 else 0)
  | .subtract => some (if b ≤ a then 1 else 0)
  | .reverseSubtract => some (if a ≤ b then 1 else 0)
  | .shiftRight => if d.shiftsInPlace then some (a % 2) else none
  | .shiftLeft => if d.shiftsInPlace then some (a / 128) else none

end Operation

namespace Registers

/-- Registers after an operation: the result is in Vx unless the flag came over it, the flag is in VF if there is one, and all else is
as it was. -/
structure Wrote (r : Registers) (x : Register) (result : Int) (flag? : Option Nat) (t : Registers) : Prop where
  result : x ≠ flagRegister ∨ flag? = none → ((t.get x).toNat : Int) = result
  flag : ∀ flag ∈ flag?, (t.get flagRegister).toNat = flag
  others : ∀ z, z ≠ x → z ≠ flagRegister ∨ flag? = none → t.get z = r.get z
  index : t.index = r.index
  pc : t.pc = r.pc

variable {r : Registers} {x : Register} {result : Int}

/-- A result without a flag. -/
theorem Wrote.of_set {value : UInt8} (h : (value.toNat : Int) = result) : r.Wrote x result none (r.set x value) where
  result := by
    intro _
    rw [get_set_self]
    exact h
  flag := nofun
  others := fun z hz _ => get_set_of_ne r value hz
  index := rfl
  pc := rfl

/-- A result and then a flag. -/
theorem Wrote.of_set_set {value flag : UInt8} {n : Nat} (h : (value.toNat : Int) = result) (hflag : flag.toNat = n) :
    r.Wrote x result (some n) ((r.set x value).set flagRegister flag) where
  result := by
    rintro (hx | hnone)
    · rw [get_set_of_ne _ _ hx, get_set_self]
      exact h
    · cases hnone
  flag := by
    rintro _ ⟨⟩
    rw [get_set_self]
    exact hflag
  others := by
    rintro z hz (hf | hnone)
    · rw [get_set_of_ne _ _ hf, get_set_of_ne _ _ hz]
    · cases hnone
  index := rfl
  pc := rfl

/-- A result and then a flag that is 1 if something holds and 0 otherwise. -/
theorem Wrote.of_setFlag {value : UInt8} {p q : Prop} [Decidable p] [Decidable q] (h : (value.toNat : Int) = result)
    (hflag : p ↔ q) : r.Wrote x result (some (if q then 1 else 0)) ((r.set x value).setFlag (decide p)) := by
  refine Wrote.of_set_set h ?_
  by_cases hq : q
  · simp [hflag, hq]
  · simp [hflag, hq]

/-- Registers are what their bytes, their index and their program counter are. -/
theorem ext_get {t u : Registers} (h : ∀ z, t.get z = u.get z) (hindex : t.index = u.index) (hpc : t.pc = u.pc) : t = u := by
  obtain ⟨v, i, p⟩ := t
  obtain ⟨w, j, q⟩ := u
  obtain rfl : i = j := hindex
  obtain rfl : p = q := hpc
  have hv : v = w := Vector.ext fun k hk => h ⟨k, hk⟩
  rw [hv]

/-- What an operation leaves is fixed by its result and its flag. -/
theorem Wrote.unique {flag? : Option Nat} {t u : Registers} (h : r.Wrote x result flag? t) (h' : r.Wrote x result flag? u) :
    t = u := by
  refine ext_get (fun z => ?_) (h.index.trans h'.index.symm) (h.pc.trans h'.pc.symm)
  by_cases hover : z ≠ flagRegister ∨ flag? = none
  · by_cases hz : z = x
    · subst hz
      exact UInt8.toNat_inj.mp (Int.ofNat_inj.mp ((h.result hover).trans (h'.result hover).symm))
    · exact (h.others z hz hover).trans (h'.others z hz hover).symm
  · obtain ⟨hz, hsome⟩ := not_or.mp hover
    obtain ⟨flag, rfl⟩ := Option.ne_none_iff_exists'.mp hsome
    obtain rfl := Decidable.not_not.mp hz
    exact UInt8.toNat_inj.mp ((h.flag flag rfl).trans (h'.flag flag rfl).symm)

/-! ## Bytes as numbers -/

theorem toNat_sub_eq_emod (a b : UInt8) : ((a - b).toNat : Int) = ((a.toNat : Int) - b.toNat) % 256 := by
  have ha := a.toNat_lt
  have hb := b.toNat_lt
  rw [UInt8.toNat_sub]
  omega

theorem toNat_half (a : UInt8) : ((a >>> 1).toNat : Int) = (a.toNat : Int) / 2 := by
  rw [UInt8.toNat_shiftRight]
  show ((a.toNat >>> 1 : Nat) : Int) = _
  rw [Nat.shiftRight_eq_div_pow]
  rfl

theorem toNat_double (a : UInt8) : ((a <<< 1).toNat : Int) = 2 * (a.toNat : Int) % 256 := by
  rw [UInt8.toNat_shiftLeft]
  show ((a.toNat <<< 1 % 256 : Nat) : Int) = _
  rw [Nat.shiftLeft_eq]
  omega

theorem toNat_lowBit (a : UInt8) : (a &&& 1).toNat = a.toNat % 2 := by
  rw [UInt8.toNat_and]
  exact Nat.and_one_is_mod _

theorem toNat_highBit (a : UInt8) : (a >>> 7).toNat = a.toNat / 128 := by
  rw [UInt8.toNat_shiftRight]
  exact Nat.shiftRight_eq_div_pow _ 7

/-! ## The operations -/

section

variable (r : Registers) (d : Dialect) (x y : Register) (value : UInt8)

theorem wrote_add :
    r.Wrote x (Operation.add.result d (r.get x).toNat value.toNat) (Operation.add.flag? d (r.get x).toNat value.toNat)
      (r.add x value) := by
  refine Wrote.of_setFlag ?_ Iff.rfl
  rw [UInt8.toNat_add]
  rfl

theorem wrote_subtract :
    r.Wrote x (Operation.subtract.result d (r.get x).toNat value.toNat)
      (Operation.subtract.flag? d (r.get x).toNat value.toNat) (r.subtract x value) :=
  Wrote.of_setFlag (toNat_sub_eq_emod _ _) UInt8.le_iff_toNat_le

theorem wrote_reverseSubtract :
    r.Wrote x (Operation.reverseSubtract.result d (r.get x).toNat value.toNat)
      (Operation.reverseSubtract.flag? d (r.get x).toNat value.toNat) (r.reverseSubtract x value) :=
  Wrote.of_setFlag (toNat_sub_eq_emod _ _) UInt8.le_iff_toNat_le

theorem wrote_shiftRight :
    r.Wrote x (Operation.shiftRight.result d (r.get x).toNat (r.get y).toNat)
      (Operation.shiftRight.flag? d (r.get x).toNat (r.get y).toNat) (r.shiftRight d x y) := by
  unfold shiftRight Operation.result Operation.flag?
  cases d.shiftsInPlace with
  | true => exact Wrote.of_set_set (toNat_half _) (toNat_lowBit _)
  | false => exact Wrote.of_set (toNat_half _)

theorem wrote_shiftLeft :
    r.Wrote x (Operation.shiftLeft.result d (r.get x).toNat (r.get y).toNat)
      (Operation.shiftLeft.flag? d (r.get x).toNat (r.get y).toNat) (r.shiftLeft d x y) := by
  unfold shiftLeft Operation.result Operation.flag?
  cases d.shiftsInPlace with
  | true => exact Wrote.of_set_set (toNat_double _) (toNat_highBit _)
  | false => exact Wrote.of_set (toNat_double _)

/-- An operation on two registers writes its result and its flag. -/
theorem wrote_operate (op : Operation) :
    r.Wrote x (op.result d (r.get x).toNat (r.get y).toNat) (op.flag? d (r.get x).toNat (r.get y).toNat)
      (r.operate d op x y) := by
  cases op with
  | copy => exact Wrote.of_set rfl
  | or => exact Wrote.of_set (congrArg Nat.cast (UInt8.toNat_or _ _))
  | and => exact Wrote.of_set (congrArg Nat.cast (UInt8.toNat_and _ _))
  | xor => exact Wrote.of_set (congrArg Nat.cast (UInt8.toNat_xor _ _))
  | add => exact r.wrote_add d x (r.get y)
  | subtract => exact r.wrote_subtract d x (r.get y)
  | reverseSubtract => exact r.wrote_reverseSubtract d x (r.get y)
  | shiftRight => exact r.wrote_shiftRight d x y
  | shiftLeft => exact r.wrote_shiftLeft d x y

end

/-- What an operation on two registers and an addition of a byte leave, for any registers, x and y the same or not and VF among them
or not, in every dialect: exactly the registers in which the result is in Vx and then the flag in VF, and all else is as it was.
Executing the instruction in a session changes its registers to these and nothing else. -/
theorem arithmetic_in_numbers (r : Registers) (d : Dialect) (x y : Register) :
    (∀ (op : Operation) (t : Registers), t = r.operate d op x y ↔
      r.Wrote x (op.result d (r.get x).toNat (r.get y).toNat) (op.flag? d (r.get x).toNat (r.get y).toNat) t) ∧
    (∀ (byte : UInt8) (t : Registers), t = r.add x byte ↔
      r.Wrote x (((r.get x).toNat + byte.toNat) % 256) (some (if 255 < (r.get x).toNat + byte.toNat then 1 else 0)) t) ∧
    (∀ (σ : Type) [Surface σ] (s : Session σ) (address : UInt16) (look : Option Keypress),
      (∀ op, s.execute address look (.operate op x y) =
        .proceed { s with registers := s.registers.operate s.dialect op x y }) ∧
      ∀ byte, s.execute address look (.addByte x byte) = .proceed { s with registers := s.registers.add x byte }) := by
  refine ⟨fun op t => ⟨?_, ?_⟩, fun byte t => ⟨?_, ?_⟩, fun σ _ s address look => ⟨fun op => rfl, fun byte => rfl⟩⟩
  · rintro rfl
    exact r.wrote_operate d x y op
  · intro h
    exact h.unique (r.wrote_operate d x y op)
  · rintro rfl
    exact r.wrote_add d x byte
  · intro h
    exact h.unique (r.wrote_add d x byte)

/-- V3 less itself is 0 without a borrow, VF plus itself is nothing but the carry, and a shift that is not in place leaves VF alone. -/
example :
    let r := ((Registers.start 0x200).set 3 7).set flagRegister 0xff
    ((r.operate .standard .subtract 3 3).get 3, (r.operate .standard .subtract 3 3).get flagRegister) = (0, 1) ∧
      (r.operate .standard .add flagRegister flagRegister).get flagRegister = 1 ∧
      (r.operate .cosmac .shiftLeft 3 flagRegister).get flagRegister = 0xff := by
  decide

end Registers

end ChipEight
