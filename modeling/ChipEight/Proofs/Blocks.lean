import ChipEight.Proofs.Lemmas.Transfer
import ChipEight.Screen.Framebuffer
import ChipEight.Session.Step

/-!
# Moving blocks of registers

A block is a range of registers and as many bytes from the index on. A store that keeps inside memory is one write of the block, and a
restore is one read of it; either stops at the end of memory and keeps what it moved. A store and a restore at the same index undo each
other, and with an index that moves along, a block may be moved in two parts (`Transfer.Block`).
-/

namespace ChipEight

/-- The values of the registers from `lo` to `hi`, ascending. -/
def Registers.values (r : Registers) (lo hi : Register) : List UInt8 := (r.v.toList.take (hi.val + 1)).drop lo.val

namespace Transfer

/-- The two ways to move a block. -/
inductive Direction where
  | store
  | restore
  deriving DecidableEq

/-- The memory and the registers after a block was moved, and the fault that ended the move, if one did. A store that faults gives no
registers back, so they stay as they were. -/
def move (d : Dialect) (m : Memory) (r : Registers) (lo hi : Register) : Direction → Memory × Registers × Option Fault
  | .store =>
    match store d m r lo hi with
    | (after, .ok moved) => (after, moved, none)
    | (after, .error f) => (after, r, some f)
  | .restore => (m, restore d m r lo hi)

/-- Where the index is behind a block of so many bytes: the address wraps at the end of memory, and the dialect may keep the index. -/
def indexBehind (d : Dialect) (r : Registers) (count : Nat) : Nat :=
  if d.keepsIndex then r.index.toNat else (r.index.toNat + count) % 0x10000

/-! ## The values of a range of registers -/

theorem values_eq (r : Registers) (lo hi : Register) : r.values lo hi = (registersFrom lo hi).map r.get := by
  have hlo : lo.val < 16 := lo.isLt
  have hhi : hi.val < 16 := hi.isLt
  refine List.ext_getElem ?_ ?_
  · rw [List.length_map, length_registersFrom, Registers.values, List.length_drop, List.length_take, Vector.length_toList]
    omega
  · intro j _ hj
    rw [List.length_map] at hj
    simp only [Registers.values, List.getElem_drop, List.getElem_take, List.getElem_map, Vector.getElem_toList, Registers.get,
      val_registersFrom hj]

theorem length_values (r : Registers) (lo hi : Register) : (r.values lo hi).length = hi.val + 1 - lo.val := by
  rw [values_eq, List.length_map, length_registersFrom]

/-- What a run of registers is loaded with, as far as it is in memory: the bytes at its address. -/
theorem map_get_restoreAll (m : Memory) (r : Registers) (address : Nat) {xs : List Register} (hn : xs.Nodup) {k : Nat}
    (hk : k ≤ xs.length) (hs : address + k ≤ Memory.size) :
    (xs.take k).map (restoreAll m r address xs).1.get = (List.range' address k).map m.peek := by
  refine List.ext_getElem ?_ ?_
  · rw [List.length_map, List.length_take, List.length_map, List.length_range']
    omega
  · intro j hj _
    rw [List.length_map, List.length_take] at hj
    rw [List.getElem_map, List.getElem_take, List.getElem_map, List.getElem_range', Nat.one_mul,
      get_restoreAll m r address hn (by omega), if_pos (by omega)]

/-! ## The index -/

theorem v_advance (d : Dialect) (r : Registers) (count : Nat) : (advance d r count).v = r.v := by
  unfold advance
  split <;> rfl

theorem index_advance (d : Dialect) (r : Registers) (count : Nat) : (advance d r count).index.toNat = indexBehind d r count := by
  unfold advance indexBehind
  split
  · rfl
  · show (r.index + UInt16.ofNat count).toNat = _
    rw [UInt16.toNat_add, UInt16.toNat_ofNat']
    omega

/-- To move the index twice is to move it once, by the sum. -/
theorem advance_advance (d : Dialect) (r : Registers) (first second : Nat) :
    advance d (advance d r first) second = advance d r (first + second) := by
  unfold advance
  split
  · rfl
  · simp only [Registers.setIndex, UInt16.ofNat_add, UInt16.add_assoc]

/-- A run of registers from a given address on does not depend on where the index has moved. -/
theorem restoreAll_advance (d : Dialect) (m : Memory) (r : Registers) (count address : Nat) (xs : List Register) :
    restoreAll m (advance d r count) address xs =
      (advance d (restoreAll m r address xs).1 count, (restoreAll m r address xs).2) := by
  unfold advance
  split
  · rfl
  · rw [restoreAll_setIndex, (frame_restoreAll m r address xs).2]

/-! ## One block -/

section

variable (d : Dialect) (m : Memory) {r : Registers} {lo hi : Register}

/-- A block that ends in memory is stored as a whole. -/
theorem move_store_of_fits (h : lo ≤ hi) (hs : r.index.toNat + (hi.val - lo.val) ≤ 0xffff) :
    move d m r lo hi .store =
      (m.pokeAll r.index.toNat (r.values lo hi), advance d r (hi.val - lo.val + 1), none) := by
  rw [move, store_eq d m r h, if_pos (by omega), values_eq]

/-- A block that passes the end of memory is stored up to there. -/
theorem move_store_of_passes (h : lo ≤ hi) (hs : 0xffff < r.index.toNat + (hi.val - lo.val)) :
    move d m r lo hi .store =
      (m.pokeAll r.index.toNat ((r.values lo hi).take (0x10000 - r.index.toNat)), r, some (.outOfRange 0x10000)) := by
  rw [move, store_eq d m r h, if_neg (by omega), values_eq, List.map_take]

/-- A block that ends in memory is restored as a whole. -/
theorem move_restore_of_fits (h : lo ≤ hi) (hs : r.index.toNat + (hi.val - lo.val) ≤ 0xffff) :
    move d m r lo hi .restore =
      (m, advance d (restoreAll m r r.index.toNat (registersFrom lo hi)).1 (hi.val - lo.val + 1), none) := by
  rw [move, restore_eq d m r h, if_pos (by omega)]

/-- A block that passes the end of memory is restored up to there. -/
theorem move_restore_of_passes (h : lo ≤ hi) (hs : 0xffff < r.index.toNat + (hi.val - lo.val)) :
    move d m r lo hi .restore =
      (m, (restoreAll m r r.index.toNat (registersFrom lo hi)).1, some (.outOfRange 0x10000)) := by
  rw [move, restore_eq d m r h, if_neg (by omega)]

/-- What a store leaves in memory, whether or not it comes to the end of memory. -/
theorem memory_move_store (h : lo ≤ hi) :
    (move d m r lo hi .store).1 =
      m.pokeAll r.index.toNat (((registersFrom lo hi).take (0x10000 - r.index.toNat)).map r.get) := by
  have hlo : lo.val ≤ hi.val := h
  by_cases hs : r.index.toNat + (hi.val - lo.val) ≤ 0xffff
  · have hlen : (registersFrom lo hi).length ≤ 0x10000 - r.index.toNat := by
      rw [length_registersFrom]
      omega
    rw [move_store_of_fits d m h hs, values_eq, List.take_of_length_le hlen]
  · rw [move_store_of_passes d m h (Nat.not_le.mp hs), values_eq, List.map_take]

/-- A restore leaves in a register what the run of the block does, whether or not it comes to the end of memory. -/
theorem get_move_restore_eq (h : lo ≤ hi) (x : Register) :
    (move d m r lo hi .restore).2.1.get x = (restoreAll m r r.index.toNat (registersFrom lo hi)).1.get x := by
  by_cases hs : r.index.toNat + (hi.val - lo.val) ≤ 0xffff
  · rw [move_restore_of_fits d m h hs, Registers.get, v_advance]
    rfl
  · rw [move_restore_of_passes d m h (Nat.not_le.mp hs)]

/-- A restore loads a register of the block whose byte is in memory, and no other. -/
theorem get_move_restore (h : lo ≤ hi) (x : Register) :
    (move d m r lo hi .restore).2.1.get x =
      if (lo ≤ x ∧ x ≤ hi) ∧ r.index.toNat + (x.val - lo.val) ≤ 0xffff then m.peek (r.index.toNat + (x.val - lo.val))
      else r.get x := by
  have hbound : r.index.toNat + (x.val - lo.val) ≤ 0xffff ↔ r.index.toNat + (x.val - lo.val) < Memory.size := Nat.lt_succ_iff.symm
  rw [get_move_restore_eq d m h, get_restoreAll_registersFrom]
  simp only [hbound]

/-- A byte of the block that a store has come to is the value of its register. -/
theorem peek_move_store (h : lo ≤ hi) {x : Register} (hx : lo ≤ x ∧ x ≤ hi) (hs : r.index.toNat + (x.val - lo.val) ≤ 0xffff) :
    (move d m r lo hi .store).1.peek (r.index.toNat + (x.val - lo.val)) = r.get x := by
  have hsize : Memory.size = 0x10000 := rfl
  obtain ⟨hj, hself⟩ := getElem_registersFrom hx
  have hmoved : x.val - lo.val < (((registersFrom lo hi).take (0x10000 - r.index.toNat)).map r.get).length := by
    rw [List.length_map, List.length_take]
    omega
  rw [memory_move_store d m h, Memory.peek_pokeAll_getElem m hmoved (by omega), List.getElem_map, List.getElem_take, hself]

end

/-! ## Blocks -/

/-- What moving a block comes to, in memory `m` and from or to the registers `r`. -/
structure Block (d : Dialect) (m : Memory) (r : Registers) (lo hi : Register) : Prop where
  /-- A store that ends in memory is one write of the registers' values. Only the index may move. -/
  stored : r.index.toNat + (hi.val - lo.val) ≤ 0xffff →
    ∃ after moved, m.write r.index.toNat (r.values lo hi) = .ok after ∧ move d m r lo hi .store = (after, moved, none) ∧
      moved.v = r.v ∧ moved.index.toNat = indexBehind d r (hi.val - lo.val + 1) ∧ moved.pc = r.pc
  /-- A store that passes the end of memory is a write of the values that fit, and a fault. All registers stay. -/
  storedToEnd : 0xffff < r.index.toNat + (hi.val - lo.val) →
    ∃ after, m.write r.index.toNat ((r.values lo hi).take (0x10000 - r.index.toNat)) = .ok after ∧
      move d m r lo hi .store = (after, r, some (.outOfRange 0x10000))
  /-- A restore that ends in memory is one read of as many bytes. Beside the registers of the block only the index may move. -/
  restored : r.index.toNat + (hi.val - lo.val) ≤ 0xffff →
    ∃ moved, m.read r.index.toNat (hi.val - lo.val + 1) = .ok (moved.values lo hi) ∧
      move d m r lo hi .restore = (m, moved, none) ∧
      (∀ x, ¬(lo ≤ x ∧ x ≤ hi) → moved.get x = r.get x) ∧
      moved.index.toNat = indexBehind d r (hi.val - lo.val + 1) ∧ moved.pc = r.pc
  /-- A restore that passes the end of memory is a read of the bytes there are, and a fault. The registers behind them and the index
  stay. -/
  restoredToEnd : 0xffff < r.index.toNat + (hi.val - lo.val) →
    ∃ moved, m.read r.index.toNat (0x10000 - r.index.toNat) = .ok ((moved.values lo hi).take (0x10000 - r.index.toNat)) ∧
      move d m r lo hi .restore = (m, moved, some (.outOfRange 0x10000)) ∧
      (∀ x, ¬((lo ≤ x ∧ x ≤ hi) ∧ r.index.toNat + (x.val - lo.val) ≤ 0xffff) → moved.get x = r.get x) ∧
      moved.index = r.index ∧ moved.pc = r.pc
  /-- What was stored is restored at the same index, in any registers and any dialect, and no other register is touched. -/
  thereAndBack : ∀ (d' : Dialect) (r' : Registers), r'.index = r.index → ∀ x,
    (move d' (move d m r lo hi .store).1 r' lo hi .restore).2.1.get x =
      if (lo ≤ x ∧ x ≤ hi) ∧ r.index.toNat + (x.val - lo.val) ≤ 0xffff then r.get x else r'.get x
  /-- What was restored is in memory already when it is stored at the same index. -/
  backAndThere : ∀ (d' : Dialect) (r' : Registers), r'.index = r.index →
    r'.v = (move d m r lo hi .restore).2.1.v → (move d' m r' lo hi .store).1 = m
  /-- With an index that moves along, a block that ends in memory may be moved in two parts. -/
  inTwo : d.keepsIndex = false → r.index.toNat + (hi.val - lo.val) ≤ 0xffff →
    ∀ (direction : Direction) (mid next : Register), next.val = mid.val + 1 → lo ≤ mid → next ≤ hi →
      ∃ after moved, move d m r lo mid direction = (after, moved, none) ∧
        move d after moved next hi direction = move d m r lo hi direction

section

variable (d : Dialect) (m : Memory) {r : Registers} {lo hi : Register}

/-- Restored registers hold the bytes of their block, as far as it is in memory. -/
theorem read_eq_values_restoreAll (h : lo ≤ hi) {count : Nat} (hcount : count ≤ hi.val - lo.val + 1)
    (hs : r.index.toNat + count ≤ Memory.size) :
    m.read r.index.toNat count =
      .ok (((restoreAll m r r.index.toNat (registersFrom lo hi)).1.values lo hi).take count) := by
  have hlo : lo.val ≤ hi.val := h
  have hlen : count ≤ (registersFrom lo hi).length := by
    rw [length_registersFrom]
    omega
  rw [Memory.read_eq, if_pos hs, values_eq, ← List.map_take,
    map_get_restoreAll m r r.index.toNat (nodup_registersFrom lo hi) hlen hs, List.range'_eq_map_range, List.map_map]
  rfl

/-- To store what is in memory already changes nothing. -/
theorem memory_store_of_restored {r' : Registers} (d' : Dialect) (h : lo ≤ hi) (hindex : r'.index = r.index)
    (hv : r'.v = (move d m r lo hi .restore).2.1.v) : (move d' m r' lo hi .store).1 = m := by
  have hlo : lo.val ≤ hi.val := h
  have hsize : Memory.size = 0x10000 := rfl
  have hinside := index_le_size r
  have hget : r'.get = (restoreAll m r r.index.toNat (registersFrom lo hi)).1.get := by
    funext x
    have hsame : r'.get x = (move d m r lo hi .restore).2.1.get x := by rw [Registers.get, hv]; rfl
    rw [hsame, get_move_restore_eq d m h]
  -- the registers of the block whose bytes are in memory
  have htake : (registersFrom lo hi).take (0x10000 - r.index.toNat) =
      (registersFrom lo hi).take (min (0x10000 - r.index.toNat) (registersFrom lo hi).length) := List.take_eq_take_min
  rw [memory_move_store d' m h, hindex, hget, htake,
    map_get_restoreAll m r r.index.toNat (nodup_registersFrom lo hi) (Nat.min_le_right _ _) (by omega),
    Memory.pokeAll_map_peek]

/-- A block that ends in memory may be stored in two parts if the index moves along. -/
theorem store_inTwo (hk : d.keepsIndex = false) (hs : r.index.toNat + (hi.val - lo.val) ≤ 0xffff) {mid next : Register}
    (hnext : next.val = mid.val + 1) (hlo : lo ≤ mid) (hhi : next ≤ hi) :
    ∃ after moved, move d m r lo mid .store = (after, moved, none) ∧
      move d after moved next hi .store = move d m r lo hi .store := by
  have hlo' : lo.val ≤ mid.val := hlo
  have hhi' : next.val ≤ hi.val := hhi
  have hle : lo ≤ hi := by
    show lo.val ≤ hi.val
    omega
  have hindex : (advance d r (mid.val - lo.val + 1)).index.toNat = r.index.toNat + (mid.val - lo.val + 1) := by
    rw [index_advance, indexBehind, hk]
    exact Nat.mod_eq_of_lt (by omega)
  have hcount : mid.val - lo.val + 1 + (hi.val - next.val + 1) = hi.val - lo.val + 1 := by omega
  have hvalues : (advance d r (mid.val - lo.val + 1)).values next hi = r.values next hi := by
    rw [Registers.values, v_advance]
    rfl
  have hlen : (r.values lo mid).length = mid.val - lo.val + 1 := by
    rw [length_values]
    omega
  have happend : r.values lo hi = r.values lo mid ++ r.values next hi := by
    rw [values_eq, values_eq, values_eq, ← List.map_append, registersFrom_append hnext hlo hhi]
  refine ⟨_, _, move_store_of_fits d m hlo (by omega), ?_⟩
  rw [move_store_of_fits d _ hhi (by omega), move_store_of_fits d m hle hs, hindex, hvalues, advance_advance, hcount, happend,
    Memory.pokeAll_append, hlen]

/-- A block that ends in memory may be restored in two parts if the index moves along. -/
theorem restore_inTwo (hk : d.keepsIndex = false) (hs : r.index.toNat + (hi.val - lo.val) ≤ 0xffff) {mid next : Register}
    (hnext : next.val = mid.val + 1) (hlo : lo ≤ mid) (hhi : next ≤ hi) :
    ∃ after moved, move d m r lo mid .restore = (after, moved, none) ∧
      move d after moved next hi .restore = move d m r lo hi .restore := by
  have hlo' : lo.val ≤ mid.val := hlo
  have hhi' : next.val ≤ hi.val := hhi
  have hle : lo ≤ hi := by
    show lo.val ≤ hi.val
    omega
  have hsize : Memory.size = 0x10000 := rfl
  have hlen : (registersFrom lo mid).length = mid.val - lo.val + 1 := by
    rw [length_registersFrom]
    omega
  have hfirst : (restoreAll m r r.index.toNat (registersFrom lo mid)).2 = none := by
    rw [fault_restoreAll m r _ _ (index_le_size r), hlen, if_pos (by omega)]
  have hindex : (advance d (restoreAll m r r.index.toNat (registersFrom lo mid)).1 (mid.val - lo.val + 1)).index.toNat =
      r.index.toNat + (mid.val - lo.val + 1) := by
    rw [index_advance, indexBehind, hk, (frame_restoreAll m r _ _).2]
    exact Nat.mod_eq_of_lt (by omega)
  have hcount : mid.val - lo.val + 1 + (hi.val - next.val + 1) = hi.val - lo.val + 1 := by omega
  refine ⟨_, _, move_restore_of_fits d m hlo (by omega), ?_⟩
  rw [move_restore_of_fits d m hhi (by omega), move_restore_of_fits d m hle hs, hindex, restoreAll_advance, advance_advance,
    hcount, ← registersFrom_append hnext hlo hhi, restoreAll_append m r _ _ _ hfirst, hlen]

/-- What moving a block comes to, law by law. -/
theorem block (h : lo ≤ hi) : Block d m r lo hi where
  stored := by
    intro hs
    have hlo : lo.val ≤ hi.val := h
    have hsize : Memory.size = 0x10000 := rfl
    have hspan : r.index.toNat + (r.values lo hi).length ≤ Memory.size := by
      rw [length_values]
      omega
    refine ⟨_, _, ?_, move_store_of_fits d m h hs, v_advance d r _, index_advance d r _, pc_advance d r _⟩
    rw [Memory.write_eq, if_pos hspan]
  storedToEnd := by
    intro hs
    have hsize : Memory.size = 0x10000 := rfl
    have hinside := index_le_size r
    have hspan : r.index.toNat + ((r.values lo hi).take (0x10000 - r.index.toNat)).length ≤ Memory.size := by
      rw [List.length_take]
      omega
    refine ⟨_, ?_, move_store_of_passes d m h hs⟩
    rw [Memory.write_eq, if_pos hspan]
  restored := by
    intro hs
    have hsize : Memory.size = 0x10000 := rfl
    obtain ⟨hpc, hindex⟩ := frame_restoreAll m r r.index.toNat (registersFrom lo hi)
    have hread := read_eq_values_restoreAll m h (Nat.le_refl _) (show r.index.toNat + _ ≤ Memory.size by omega)
    have hall (t : Registers) : (t.values lo hi).take (hi.val - lo.val + 1) = t.values lo hi := by
      refine List.take_of_length_le ?_
      rw [length_values]
      omega
    refine ⟨_, ?_, move_restore_of_fits d m h hs, ?_, ?_, (pc_advance d _ _).trans hpc⟩
    · rw [hread, hall, Registers.values, Registers.values, v_advance]
    · intro x hx
      have hkept := get_move_restore d m (r := r) h x
      rw [move_restore_of_fits d m h hs, if_neg fun hc => hx hc.1] at hkept
      exact hkept
    · rw [index_advance, indexBehind, indexBehind, hindex]
  restoredToEnd := by
    intro hs
    have hsize : Memory.size = 0x10000 := rfl
    have hinside := index_le_size r
    obtain ⟨hpc, hindex⟩ := frame_restoreAll m r r.index.toNat (registersFrom lo hi)
    refine ⟨_, ?_, move_restore_of_passes d m h hs, ?_, hindex, hpc⟩
    · exact read_eq_values_restoreAll m h (by omega) (by omega)
    · intro x hx
      have hkept := get_move_restore d m (r := r) h x
      rw [move_restore_of_passes d m h hs, if_neg hx] at hkept
      exact hkept
  thereAndBack := by
    intro d' r' hsame x
    rw [get_move_restore d' _ h, hsame]
    split
    · rename_i hx
      exact peek_move_store d m h hx.1 hx.2
    · rfl
  backAndThere := by
    intro d' r' hsame hv
    exact memory_store_of_restored d m d' h hsame hv
  inTwo := by
    intro hk hs direction mid next hnext hmid hhi
    cases direction with
    | store => exact store_inTwo d m hk hs hnext hmid hhi
    | restore => exact restore_inTwo d m hk hs hnext hmid hhi

end

end Transfer

/-- What an instruction that moves a block comes to. -/
def Execution.ofMove {σ : Type} (s : Session σ) (done : Memory × Registers × Option Fault) : Execution σ :=
  ⟨{ s with memory := done.1, registers := done.2.1 }, [], done.2.2.map .fault⟩

namespace Transfer

section

variable {σ : Type} [Surface σ]

theorem execute_store_eq (s : Session σ) (address : UInt16) (latched : Option Keypress) (x : Register) :
    s.execute address latched (.store x) =
      Execution.ofMove s (move s.dialect s.memory s.registers firstRegister x .store) := by
  rw [Session.execute, move]
  rcases store s.dialect s.memory s.registers firstRegister x with ⟨after, f | moved⟩
  · rfl
  · rfl

theorem execute_restore_eq (s : Session σ) (address : UInt16) (latched : Option Keypress) (x : Register) :
    s.execute address latched (.restore x) =
      Execution.ofMove s (move s.dialect s.memory s.registers firstRegister x .restore) := by
  rw [Session.execute, move]
  rcases restore s.dialect s.memory s.registers firstRegister x with ⟨moved, _ | f⟩
  · rfl
  · rfl

end

/-- Blocks of registers, for any memory, registers and dialect. The instructions Fx55 and Fx65 move such a block from V0 on. -/
theorem block_moves {σ : Type} [Surface σ] (d : Dialect) (m : Memory) (r : Registers) {lo hi : Register} (h : lo ≤ hi) :
    Block d m r lo hi ∧
    ∀ (s : Session σ) (address : UInt16) (latched : Option Keypress) (x : Register),
      s.execute address latched (.store x) =
        Execution.ofMove s (move s.dialect s.memory s.registers firstRegister x .store) ∧
      s.execute address latched (.restore x) =
        Execution.ofMove s (move s.dialect s.memory s.registers firstRegister x .restore) := by
  refine ⟨block d m h, fun s address latched x => ⟨?_, ?_⟩⟩
  · exact execute_store_eq s address latched x
  · exact execute_restore_eq s address latched x

/-- Registers with 1 to 4 in V2 to V5, and with the index at the last four bytes of memory. -/
def atEdge : Registers := ⟨#v[0, 0, 1, 2, 3, 4, 0, 0, 0, 0, 0, 0, 0, 0, 0, 0], 0xfffc, 0x200⟩

/-- V2 to V5 fill memory to its last byte, and the index that moves along comes to 0. To store V2 and V3 first is the same. From V2 to
V6 is one byte too much: the write ends at the end of memory, and the index stays. -/
theorem block_moves_to_edge :
    (2 : Register) ≤ 5 ∧ (2 : Register) ≤ 6 ∧
    (∃ after moved, Memory.fresh.write 0xfffc [1, 2, 3, 4] = .ok after ∧
      move .cosmac .fresh atEdge 2 5 .store = (after, moved, none) ∧ moved.index.toNat = 0) ∧
    (∃ after moved, move .cosmac .fresh atEdge 2 3 .store = (after, moved, none) ∧
      move .cosmac after moved 4 5 .store = move .cosmac .fresh atEdge 2 5 .store) ∧
    ∃ after, Memory.fresh.write 0xfffc [1, 2, 3, 4] = .ok after ∧
      move .cosmac .fresh atEdge 2 6 .store = (after, atEdge, some (.outOfRange 0x10000)) := by
  have hfour : (2 : Register) ≤ 5 := by decide
  have hfive : (2 : Register) ≤ 6 := by decide
  obtain ⟨hfits, -⟩ := @block_moves (Framebuffer .standard) _ .cosmac .fresh atEdge 2 5 hfour
  obtain ⟨hpasses, -⟩ := @block_moves (Framebuffer .standard) _ .cosmac .fresh atEdge 2 6 hfive
  obtain ⟨after, moved, hwrite, hmove, -, hindex, -⟩ := hfits.stored (by decide)
  refine ⟨hfour, hfive, ⟨after, moved, hwrite, hmove, hindex⟩, ?_, hpasses.storedToEnd (by decide)⟩
  exact hfits.inTwo rfl (by decide) .store 3 4 rfl (by decide) (by decide)

end Transfer

end ChipEight
