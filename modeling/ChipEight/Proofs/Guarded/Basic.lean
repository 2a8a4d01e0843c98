/-!
# Operations that can trap

The machine as a processor runs it: an index must be below the length, a slice must lie in what it is cut from, a sum, a
difference or a product must fit its type, and so must a number that is made narrower, a remainder or a quotient needs a divisor,
and a shift moves by less than the width. A test that fails is a trap, which is not a fault of the program that the machine runs
but the end of everything.

The one fact that matters about each of them: when its test holds, it is the operation without the test.
-/

namespace ChipEight

/-- Why an operation could not be carried out. -/
inductive Trap where
  | index (i length : Nat)
  | slice (start stop length : Nat)
  /-- A copy between slices of different lengths. -/
  | copy (target source : Nat)
  /-- A result that its type does not hold. -/
  | overflow
  /-- A remainder by zero. -/
  | remainder
  | shift (bits amount : Nat)
  deriving DecidableEq, Repr

/-- What an operation that can trap comes to. -/
abbrev Guarded := Except Trap

namespace Guarded

/-- One more than the greatest address, length or index. -/
def addressLimit : Nat := 0x10000000000000000

/-- A sum below a limit. -/
def sum (limit a b : Nat) : Guarded Nat := if a + b < limit then .ok (a + b) else .error .overflow

/-- A difference that is not negative. -/
def difference (a b : Nat) : Guarded Nat := if b ≤ a then .ok (a - b) else .error .overflow

/-- A product below a limit. -/
def product (limit a b : Nat) : Guarded Nat := if a * b < limit then .ok (a * b) else .error .overflow

/-- A remainder by something that is not zero. -/
def remainder (a b : Nat) : Guarded Nat := if b = 0 then .error .remainder else .ok (a % b)

/-- A quotient by something that is not zero. By zero it traps as the remainder does. -/
def quotient (a b : Nat) : Guarded Nat := if b = 0 then .error .remainder else .ok (a / b)

/-- A number that a narrower type holds as well. -/
def narrowed (limit a : Nat) : Guarded Nat := if a < limit then .ok a else .error .overflow

/-- The bit of a byte that is some places behind the top one. -/
def bit (places : Nat) : Guarded UInt8 :=
  if places < 8 then .ok (0x80 >>> UInt8.ofNat places) else .error (.shift 8 places)

/-- The element at an index. -/
def element {α : Type} {n : Nat} (xs : Vector α n) (i : Nat) : Guarded α :=
  if h : i < n then .ok xs[i] else .error (.index i n)

/-- The elements with the one at an index changed. -/
def withElement {α : Type} {n : Nat} (xs : Vector α n) (i : Nat) (a : α) : Guarded (Vector α n) :=
  if h : i < n then .ok (xs.set i a) else .error (.index i n)

/-- The entry of a list at an index. -/
def entry {α : Type} (xs : List α) (i : Nat) : Guarded α := if h : i < xs.length then .ok xs[i] else .error (.index i xs.length)

variable {α : Type} {n : Nat}

@[simp] theorem pure_eq (a : α) : (pure a : Guarded α) = .ok a := rfl

@[simp] theorem ok_bind {β : Type} (a : α) (f : α → Guarded β) : ((.ok a : Guarded α) >>= f) = f a := rfl

@[simp] theorem error_bind {β : Type} (t : Trap) (f : α → Guarded β) : ((.error t : Guarded α) >>= f) = .error t := rfl

theorem sum_eq {limit a b : Nat} (h : a + b < limit) : sum limit a b = .ok (a + b) := if_pos h

theorem sum_eq_error {limit a b : Nat} (h : limit ≤ a + b) : sum limit a b = .error .overflow := if_neg (Nat.not_lt.mpr h)

theorem difference_eq {a b : Nat} (h : b ≤ a) : difference a b = .ok (a - b) := if_pos h

theorem product_eq {limit a b : Nat} (h : a * b < limit) : product limit a b = .ok (a * b) := if_pos h

theorem remainder_eq {a b : Nat} (h : 0 < b) : remainder a b = .ok (a % b) := if_neg (Nat.ne_of_gt h)

theorem quotient_eq {a b : Nat} (h : 0 < b) : quotient a b = .ok (a / b) := if_neg (Nat.ne_of_gt h)

theorem narrowed_eq {limit a : Nat} (h : a < limit) : narrowed limit a = .ok a := if_pos h

theorem bit_eq {places : Nat} (h : places < 8) : bit places = .ok (0x80 >>> UInt8.ofNat places) := if_pos h

theorem element_eq {xs : Vector α n} {i : Nat} (h : i < n) : element xs i = .ok xs[i] := dif_pos h

theorem withElement_eq {xs : Vector α n} {i : Nat} {a : α} (h : i < n) : withElement xs i a = .ok (xs.set i a) := dif_pos h

end Guarded

end ChipEight
