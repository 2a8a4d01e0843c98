import ChipEight.Machine.Transfer
import ChipEight.Proofs.Lemmas.Memory
import ChipEight.Proofs.Lemmas.Registers

/-!
# Runs of registers to and from memory

A run stops at the end of memory. `storeAll_eq` gives the memory it leaves in closed form, `get_restoreAll` the registers, and
both say when a run ends with a fault and which one. The transfers of whole ranges of registers follow.
-/

namespace ChipEight.Transfer

/-! ## Ranges of registers -/

/-- The registers from `lo` to `hi`, as numbers. -/
theorem map_val_registersFrom : ∀ lo hi : Register,
    (registersFrom lo hi).map Fin.val = List.range' lo.val (hi.val + 1 - lo.val) := by
  decide +kernel

theorem length_registersFrom (lo hi : Register) : (registersFrom lo hi).length = hi.val + 1 - lo.val := by
  rw [← List.length_map (f := Fin.val), map_val_registersFrom, List.length_range']

/-- The `j`-th register of a range. -/
theorem val_registersFrom {lo hi : Register} {j : Nat} (h : j < (registersFrom lo hi).length) :
    ((registersFrom lo hi)[j]).val = lo.val + j := by
  have hm : j < ((registersFrom lo hi).map Fin.val).length := by rwa [List.length_map]
  rw [← List.getElem_map Fin.val (h := hm)]
  simp only [map_val_registersFrom, List.getElem_range', Nat.one_mul]

theorem mem_registersFrom {lo hi x : Register} : x ∈ registersFrom lo hi ↔ lo ≤ x ∧ x ≤ hi := by
  simp [registersFrom]

theorem nodup_registersFrom (lo hi : Register) : (registersFrom lo hi).Nodup :=
  (List.nodup_finRange 16).filter _

/-- A register of a range stands at its distance from the first one. -/
theorem getElem_registersFrom {lo hi x : Register} (hx : lo ≤ x ∧ x ≤ hi) :
    ∃ h : x.val - lo.val < (registersFrom lo hi).length, (registersFrom lo hi)[x.val - lo.val] = x := by
  have hlo : lo.val ≤ x.val := hx.1
  have hhi : x.val ≤ hi.val := hx.2
  have hj : x.val - lo.val < (registersFrom lo hi).length := by
    rw [length_registersFrom]
    omega
  have hval := val_registersFrom hj
  exact ⟨hj, Fin.ext (by omega)⟩

/-- A range of registers in two parts is one range. -/
theorem registersFrom_append {lo mid next hi : Register} (hnext : next.val = mid.val + 1) (hlo : lo ≤ mid) (hhi : next ≤ hi) :
    registersFrom lo mid ++ registersFrom next hi = registersFrom lo hi := by
  have hlo' : lo.val ≤ mid.val := hlo
  have hhi' : next.val ≤ hi.val := hhi
  have hstart : next.val = lo.val + (mid.val + 1 - lo.val) := by omega
  have hlen : hi.val + 1 - lo.val = (mid.val + 1 - lo.val) + (hi.val + 1 - next.val) := by omega
  refine (List.map_inj_right fun _ _ => Fin.ext).mp ?_
  rw [List.map_append, map_val_registersFrom, map_val_registersFrom, map_val_registersFrom, hlen, ← List.range'_append_1,
    ← hstart]

/-- Moving the index leaves the program counter alone. -/
@[simp] theorem pc_advance (d : Dialect) (r : Registers) (count : Nat) : (advance d r count).pc = r.pc := by
  unfold advance
  split <;> rfl

/-! ## Storing -/

/-- A run of registers writes what fits into memory, in order, and faults at the end of memory if something is left. -/
theorem storeAll_eq (r : Registers) (m : Memory) (address : Nat) (xs : List Register) (h : address ≤ Memory.size) :
    storeAll r m address xs =
      (m.pokeAll address ((xs.take (Memory.size - address)).map r.get),
        if address + xs.length ≤ Memory.size then none else some (.outOfRange Memory.size)) := by
  induction xs generalizing m address with
  | nil => simp [storeAll, Memory.pokeAll, h]
  | cons x rest ih =>
    unfold storeAll
    rw [Memory.setByte_eq]
    by_cases hs : address + 1 ≤ Memory.size
    · have hsub : Memory.size - address = Memory.size - (address + 1) + 1 := by omega
      rw [if_pos hs]
      simp only [ih (m.poke address (r.get x)) (address + 1) hs, hsub, List.take_succ_cons, List.map_cons, Memory.pokeAll,
        List.length_cons, Nat.add_assoc, Nat.add_comm 1]
    · have hat : address = Memory.size := by omega
      rw [if_neg hs, List.length_cons, if_neg (by omega), hat]
      simp [Memory.pokeAll]

/-! ## Restoring -/

/-- A run of registers leaves index and program counter alone. -/
theorem frame_restoreAll (m : Memory) (r : Registers) (address : Nat) (xs : List Register) :
    (restoreAll m r address xs).1.pc = r.pc ∧ (restoreAll m r address xs).1.index = r.index := by
  induction xs generalizing r address with
  | nil => exact ⟨rfl, rfl⟩
  | cons x rest ih =>
    unfold restoreAll
    split
    · exact ih _ _
    · exact ⟨rfl, rfl⟩

/-- A register that is not in a run keeps its value. -/
theorem get_restoreAll_of_not_mem (m : Memory) (r : Registers) (address : Nat) {xs : List Register} {y : Register}
    (h : y ∉ xs) : (restoreAll m r address xs).1.get y = r.get y := by
  induction xs generalizing r address with
  | nil => rfl
  | cons x rest ih =>
    rw [List.mem_cons, not_or] at h
    unfold restoreAll
    split
    · rw [ih _ _ h.2, Registers.get_set, if_neg (Ne.symm h.1)]
    · rfl

/-- A register of a run is loaded from its byte, if the byte is in memory. -/
theorem get_restoreAll (m : Memory) (r : Registers) (address : Nat) {xs : List Register} (hn : xs.Nodup) {j : Nat}
    (hj : j < xs.length) :
    (restoreAll m r address xs).1.get xs[j] =
      if address + j < Memory.size then m.peek (address + j) else r.get xs[j] := by
  induction xs generalizing r address j with
  | nil => cases hj
  | cons x rest ih =>
    obtain ⟨hx, hrest⟩ := List.nodup_cons.mp hn
    unfold restoreAll
    rw [Memory.byte_eq]
    by_cases hs : address + 1 ≤ Memory.size
    · rw [if_pos hs]
      cases j with
      | zero =>
        show (restoreAll m (r.set x (m.peek address)) (address + 1) rest).1.get x = _
        rw [get_restoreAll_of_not_mem m _ _ hx, Registers.get_set_self, Nat.add_zero, if_pos (Nat.lt_of_succ_le hs)]
      | succ j =>
        have hj' : j < rest.length := by simpa using hj
        have hne : x ≠ rest[j] := fun e => hx (e ▸ List.getElem_mem hj')
        have key := ih (r.set x (m.peek address)) (address + 1) hrest hj'
        rw [Registers.get_set, if_neg hne, Nat.add_assoc, Nat.add_comm 1 j] at key
        exact key
    · rw [if_neg hs, if_neg (by omega)]

/-- What a range of registers is loaded with: each register with the byte at its place, if the byte is in memory. -/
theorem get_restoreAll_registersFrom (m : Memory) (r : Registers) (address : Nat) (lo hi x : Register) :
    (restoreAll m r address (registersFrom lo hi)).1.get x =
      if (lo ≤ x ∧ x ≤ hi) ∧ address + (x.val - lo.val) < Memory.size then m.peek (address + (x.val - lo.val))
      else r.get x := by
  by_cases hx : lo ≤ x ∧ x ≤ hi
  · obtain ⟨hj, hself⟩ := getElem_registersFrom hx
    have key := get_restoreAll m r address (nodup_registersFrom lo hi) hj
    rw [hself] at key
    rw [key]
    simp only [hx, and_self, true_and]
  · rw [get_restoreAll_of_not_mem m r address fun hm => hx (mem_registersFrom.mp hm), if_neg fun hc => hx hc.1]

/-- A run in two parts is one run, if the first part did not come to the end of memory. -/
theorem restoreAll_append (m : Memory) (r : Registers) (address : Nat) (xs ys : List Register)
    (h : (restoreAll m r address xs).2 = none) :
    restoreAll m r address (xs ++ ys) = restoreAll m (restoreAll m r address xs).1 (address + xs.length) ys := by
  induction xs generalizing r address with
  | nil => rfl
  | cons x rest ih =>
    have hnext : address + (x :: rest).length = address + 1 + rest.length := by simp; omega
    rw [List.cons_append, restoreAll, restoreAll, hnext]
    rw [restoreAll] at h
    cases hb : m.byte address with
    | ok value =>
      rw [hb] at h
      exact ih (r.set x value) (address + 1) h
    | error f =>
      rw [hb] at h
      cases h

/-- The index does not matter to a run from a given address on. -/
theorem restoreAll_setIndex (m : Memory) (r : Registers) (index : UInt16) (address : Nat) (xs : List Register) :
    restoreAll m (r.setIndex index) address xs =
      ((restoreAll m r address xs).1.setIndex index, (restoreAll m r address xs).2) := by
  induction xs generalizing r address with
  | nil => rfl
  | cons x rest ih =>
    unfold restoreAll
    split
    · exact ih (r.set x _) (address + 1)
    · rfl

/-- A run faults when it would leave memory. -/
theorem fault_restoreAll (m : Memory) (r : Registers) (address : Nat) (xs : List Register) (h : address ≤ Memory.size) :
    (restoreAll m r address xs).2 =
      if address + xs.length ≤ Memory.size then none else some (.outOfRange Memory.size) := by
  induction xs generalizing r address with
  | nil => simp [restoreAll, h]
  | cons x rest ih =>
    unfold restoreAll
    rw [Memory.byte_eq]
    by_cases hs : address + 1 ≤ Memory.size
    · rw [if_pos hs]
      simp only [ih _ (address + 1) hs, List.length_cons, Nat.add_assoc, Nat.add_comm 1]
    · have hat : address = Memory.size := by omega
      rw [if_neg hs, List.length_cons, if_neg (by omega), hat]
      simp

/-! ## Ranges of registers at the index -/

/-- The index is an address in memory. -/
theorem index_le_size (r : Registers) : r.index.toNat ≤ Memory.size := Nat.le_of_lt r.index.toNat_lt

/-- A range of registers is stored as a whole, or up to the end of memory. -/
theorem store_eq (d : Dialect) (m : Memory) (r : Registers) {lo hi : Register} (h : lo ≤ hi) :
    store d m r lo hi =
      if r.index.toNat + (hi.val - lo.val + 1) ≤ 0x10000 then
        (m.pokeAll r.index.toNat ((registersFrom lo hi).map r.get), .ok (advance d r (hi.val - lo.val + 1)))
      else
        (m.pokeAll r.index.toNat (((registersFrom lo hi).take (0x10000 - r.index.toNat)).map r.get),
          .error (.outOfRange 0x10000)) := by
  have hlen : (registersFrom lo hi).length = hi.val - lo.val + 1 := by
    have hle : lo.val ≤ hi.val := h
    rw [length_registersFrom]
    omega
  have hsize : Memory.size = 0x10000 := rfl
  rw [store, storeAll_eq r m _ _ (index_le_size r), hlen, hsize]
  by_cases hs : r.index.toNat + (hi.val - lo.val + 1) ≤ 0x10000
  · rw [if_pos hs, if_pos hs, List.take_of_length_le (by omega)]
  · rw [if_neg hs, if_neg hs]

/-- A range of registers is restored as a whole, or up to the end of memory. -/
theorem restore_eq (d : Dialect) (m : Memory) (r : Registers) {lo hi : Register} (h : lo ≤ hi) :
    restore d m r lo hi =
      if r.index.toNat + (hi.val - lo.val + 1) ≤ 0x10000 then
        (advance d (restoreAll m r r.index.toNat (registersFrom lo hi)).1 (hi.val - lo.val + 1), none)
      else ((restoreAll m r r.index.toNat (registersFrom lo hi)).1, some (.outOfRange 0x10000)) := by
  have hlen : (registersFrom lo hi).length = hi.val - lo.val + 1 := by
    have hle : lo.val ≤ hi.val := h
    rw [length_registersFrom]
    omega
  have hsize : Memory.size = 0x10000 := rfl
  have hf := fault_restoreAll m r r.index.toNat (registersFrom lo hi) (index_le_size r)
  rw [hlen, hsize] at hf
  unfold restore
  cases hr : restoreAll m r r.index.toNat (registersFrom lo hi) with
  | mk r' f =>
    rw [hr] at hf
    dsimp only at hf
    subst hf
    by_cases hs : r.index.toNat + (hi.val - lo.val + 1) ≤ 0x10000
    · rw [if_pos hs, if_pos hs]
    · rw [if_neg hs, if_neg hs]

end ChipEight.Transfer
