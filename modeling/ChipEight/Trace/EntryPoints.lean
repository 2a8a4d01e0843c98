/-!
# Entry points

A set of addresses that were used as the target of a jump, a call or an index, in ascending order and each only once.
-/

namespace ChipEight

/-- A set of addresses. -/
structure EntryPoints where
  /-- The addresses, ascending. -/
  addresses : List UInt16
  ascending : addresses.Pairwise (· < ·)
  deriving DecidableEq, Repr

namespace EntryPoints

/-- No address. -/
def empty : EntryPoints := ⟨[], List.Pairwise.nil⟩

instance : Inhabited EntryPoints := ⟨empty⟩

/-- Puts an address in its place in an ascending list, unless it is there. -/
def insertInto (address : UInt16) : List UInt16 → List UInt16
  | [] => [address]
  | first :: rest =>
    if address < first then address :: first :: rest
    else if address = first then first :: rest
    else first :: insertInto address rest

theorem mem_insertInto {address a : UInt16} {as : List UInt16} : a ∈ insertInto address as ↔ a = address ∨ a ∈ as := by
  induction as with
  | nil => simp [insertInto]
  | cons first rest ih =>
    unfold insertInto
    split
    · simp
    · split
      · simp_all
      · simp only [List.mem_cons, ih]
        exact or_left_comm

theorem insertInto_ascending (address : UInt16) {as : List UInt16} (h : as.Pairwise (· < ·)) :
    (insertInto address as).Pairwise (· < ·) := by
  induction as with
  | nil => simp [insertInto]
  | cons first rest ih =>
    have ⟨below, others⟩ := List.pairwise_cons.mp h
    unfold insertInto
    split
    · rename_i less
      refine List.pairwise_cons.mpr ⟨fun b hb => ?_, h⟩
      rcases List.mem_cons.mp hb with rfl | hb
      · exact less
      · exact UInt16.lt_trans less (below b hb)
    · split
      · exact h
      · rename_i notLess notEqual
        refine List.pairwise_cons.mpr ⟨fun b hb => ?_, ih others⟩
        rcases mem_insertInto.mp hb with rfl | hb
        · exact UInt16.lt_of_le_of_ne (UInt16.not_lt.mp notLess) (Ne.symm notEqual)
        · exact below b hb

/-- The set with another address. -/
def insert (e : EntryPoints) (address : UInt16) : EntryPoints :=
  ⟨insertInto address e.addresses, insertInto_ascending address e.ascending⟩

/-- Whether an address is in the set. -/
def contains (e : EntryPoints) (address : UInt16) : Bool := e.addresses.contains address

/-- How many addresses there are. -/
def size (e : EntryPoints) : Nat := e.addresses.length

theorem contains_insert (e : EntryPoints) (address a : UInt16) :
    (e.insert address).contains a = (a == address || e.contains a) := by
  rw [Bool.eq_iff_iff]
  simp [contains, insert, mem_insertInto]

end EntryPoints

end ChipEight
