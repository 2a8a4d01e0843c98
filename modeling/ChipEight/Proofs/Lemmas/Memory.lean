import ChipEight.Machine.Memory

/-!
# Accesses to memory

Statements about spans, single bytes, runs of bytes and loading: when an access succeeds, what it gives, and what it leaves
alone. An access to a span is one test followed by a total read or write, so each statement is an equation with one condition.
-/

namespace ChipEight.Memory

/-! ## What writing leaves alone -/

@[simp] theorem programAddress_poke (m : Memory) (address : Nat) (value : UInt8) :
    (m.poke address value).programAddress = m.programAddress := by
  unfold poke
  split <;> rfl

@[simp] theorem programLength_poke (m : Memory) (address : Nat) (value : UInt8) :
    (m.poke address value).programLength = m.programLength := by
  unfold poke
  split <;> rfl

@[simp] theorem programAddress_pokeAll (m : Memory) (address : Nat) (data : List UInt8) :
    (m.pokeAll address data).programAddress = m.programAddress := by
  induction data generalizing m address with
  | nil => rfl
  | cons value rest ih => rw [pokeAll, ih, programAddress_poke]

@[simp] theorem programLength_pokeAll (m : Memory) (address : Nat) (data : List UInt8) :
    (m.pokeAll address data).programLength = m.programLength := by
  induction data generalizing m address with
  | nil => rfl
  | cons value rest ih => rw [pokeAll, ih, programLength_poke]

/-- A poke outside memory does nothing. -/
theorem poke_of_le (m : Memory) {address : Nat} (value : UInt8) (h : size ≤ address) : m.poke address value = m := by
  rw [poke, dif_neg (Nat.not_lt.mpr h)]

/-- There is nothing outside memory. -/
theorem peek_of_le (m : Memory) {address : Nat} (h : size ≤ address) : m.peek address = 0 := by
  rw [peek, dif_neg (Nat.not_lt.mpr h)]

/-- What a poke anywhere does to a byte in memory. -/
theorem peek_poke_of_lt (m : Memory) (address : Nat) {other : Nat} (value : UInt8) (h : other < size) :
    (m.poke address value).peek other = if address = other then value else m.peek other := by
  by_cases ha : address < size
  · exact peek_poke m address other value ha
  · rw [poke_of_le m value (Nat.not_lt.mp ha), if_neg (by omega)]

/-- Bytes in front of a run are left alone. -/
theorem peek_pokeAll_of_lt (m : Memory) {address other : Nat} (data : List UInt8) (h : other < address) :
    (m.pokeAll address data).peek other = m.peek other := by
  induction data generalizing m address with
  | nil => rfl
  | cons value rest ih =>
    rw [pokeAll, ih _ (Nat.lt_succ_of_lt h)]
    by_cases hs : other < size
    · rw [peek_poke_of_lt m address value hs, if_neg (by omega)]
    · rw [peek_of_le _ (Nat.not_lt.mp hs), peek_of_le _ (Nat.not_lt.mp hs)]

/-- Bytes behind a run are left alone. -/
theorem peek_pokeAll_of_le (m : Memory) {address other : Nat} {data : List UInt8} (h : address + data.length ≤ other) :
    (m.pokeAll address data).peek other = m.peek other := by
  induction data generalizing m address with
  | nil => rfl
  | cons value rest ih =>
    rw [List.length_cons] at h
    rw [pokeAll, ih _ (by omega)]
    by_cases hs : other < size
    · rw [peek_poke_of_lt m address value hs, if_neg (by omega)]
    · rw [peek_of_le _ (Nat.not_lt.mp hs), peek_of_le _ (Nat.not_lt.mp hs)]

/-- Bytes outside a run of at most some length are left alone. -/
theorem peek_pokeAll_of_outside (m : Memory) (length : Nat) {address other : Nat} {data : List UInt8}
    (hlen : data.length ≤ length) (h : other < address ∨ address + length ≤ other) :
    (m.pokeAll address data).peek other = m.peek other := by
  rcases h with h | h
  · exact peek_pokeAll_of_lt m data h
  · exact peek_pokeAll_of_le m (by omega)

/-- A run that ends in memory is there afterwards. -/
theorem peek_pokeAll_getElem (m : Memory) {address : Nat} {data : List UInt8} {i : Nat} (hi : i < data.length)
    (h : address + i < size) : (m.pokeAll address data).peek (address + i) = data[i] := by
  induction data generalizing m address i with
  | nil => cases hi
  | cons value rest ih =>
    rw [pokeAll]
    cases i with
    | zero =>
      show ((m.poke address value).pokeAll (address + 1) rest).peek address = value
      have hself : (m.poke address value).peek address = if address = address then value else m.peek address :=
        peek_poke_of_lt m address value h
      rw [peek_pokeAll_of_lt _ rest (Nat.lt_add_one address), hself, if_pos rfl]
    | succ i =>
      rw [List.length_cons] at hi
      have hrest : address + (i + 1) = address + 1 + i := by omega
      rw [hrest] at h ⊢
      exact ih (m.poke address value) (Nat.lt_of_succ_lt_succ hi) h

/-- A run that is written in two parts is written as one. -/
theorem pokeAll_append (m : Memory) (address : Nat) (data more : List UInt8) :
    m.pokeAll address (data ++ more) = (m.pokeAll address data).pokeAll (address + data.length) more := by
  induction data generalizing m address with
  | nil => rfl
  | cons value rest ih =>
    have hnext : address + (value :: rest).length = address + 1 + rest.length := by simp; omega
    rw [List.cons_append, pokeAll, ih, hnext]
    rfl

/-- To write the byte that is there changes nothing. -/
theorem poke_peek (m : Memory) (address : Nat) : m.poke address (m.peek address) = m := by
  by_cases h : address < size
  · have inside : address < m.bytes.size := m.size_bytes ▸ h
    have hbytes : m.bytes.set address (m.peek address) inside = m.bytes := by
      rw [peek, dif_pos h]
      exact ByteArray.ext (Array.set_getElem_self inside)
    simp only [poke, h, dite_true, hbytes]
  · exact poke_of_le m _ (Nat.not_lt.mp h)

/-- To write a run of bytes that are there changes nothing. -/
theorem pokeAll_map_peek (m : Memory) (address length : Nat) :
    m.pokeAll address ((List.range' address length).map m.peek) = m := by
  induction length generalizing address with
  | zero => rfl
  | succ length ih => rw [List.range'_succ, List.map_cons, pokeAll, poke_peek, ih]

/-! ## Spans -/

/-- An access to a span is a test, and then what it does. -/
theorem checkSpan_bind {α : Type} (address length : Nat) (access : Except Fault α) :
    (checkSpan address length >>= fun _ => access) =
      if address + length ≤ size then access else .error (.outOfRange (max address size)) := by
  unfold checkSpan
  split <;> rfl

theorem read_eq (m : Memory) (address length : Nat) :
    m.read address length =
      if address + length ≤ size then .ok ((List.range length).map fun i => m.peek (address + i))
      else .error (.outOfRange (max address size)) :=
  checkSpan_bind address length _

theorem write_eq (m : Memory) (address : Nat) (data : List UInt8) :
    m.write address data =
      if address + data.length ≤ size then .ok (m.pokeAll address data) else .error (.outOfRange (max address size)) :=
  checkSpan_bind address data.length _

theorem fill_eq (m : Memory) (address length : Nat) (value : UInt8) :
    m.fill address length value =
      if address + length ≤ size then .ok (m.pokeAll address (List.replicate length value))
      else .error (.outOfRange (max address size)) :=
  checkSpan_bind address length _

theorem word_eq (m : Memory) (address : Nat) :
    m.word address =
      if address + 2 ≤ size then .ok (.ofBytes (m.peek address) (m.peek (address + 1)))
      else .error (.outOfRange (max address size)) :=
  checkSpan_bind address 2 _

theorem byte_eq (m : Memory) (address : Nat) :
    m.byte address = if address + 1 ≤ size then .ok (m.peek address) else .error (.outOfRange (max address size)) :=
  checkSpan_bind address 1 _

theorem setByte_eq (m : Memory) (address : Nat) (value : UInt8) :
    m.setByte address value =
      if address + 1 ≤ size then .ok (m.poke address value) else .error (.outOfRange (max address size)) :=
  checkSpan_bind address 1 _

/-! ## The executable region and loading -/

/-- An address is executable when it lies from 0x200 up to 0x1000. -/
theorem isExecutable_iff (address : Nat) : isExecutable address = true ↔ 0x200 ≤ address ∧ address < 0x1000 := by
  rw [isExecutable, Bool.and_eq_true, decide_eq_true_iff, decide_eq_true_iff]
  rfl

/-- A program is loaded when its address is executable and the region has room for it. -/
theorem load_eq (m : Memory) (program : List UInt8) (address : UInt16) :
    m.load program address =
      if 0x200 ≤ address.toNat ∧ address.toNat < 0x1000 then
        if address.toNat + program.length ≤ 0x1000 then
          .ok { m.pokeAll address.toNat program with programAddress := address, programLength := program.length }
        else .error (.programTooLarge program.length (0x1000 - address.toNat))
      else .error (.outOfRange address.toNat) := by
  have hlimit : programLimit = 0x1000 := rfl
  rw [load]
  simp only [isExecutable_iff]
  by_cases he : 0x200 ≤ address.toNat ∧ address.toNat < 0x1000
  · have hroom : program.length ≤ programLimit - address.toNat ↔ address.toNat + program.length ≤ 0x1000 := by omega
    simp only [if_pos he, hroom]
    rfl
  · rw [if_neg he, if_neg he]

/-- A program that was loaded lies in the executable region, and the memory says where. -/
theorem of_load_eq_ok {m loaded : Memory} {program : List UInt8} {address : UInt16}
    (h : m.load program address = .ok loaded) :
    0x200 ≤ address.toNat ∧ address.toNat < 0x1000 ∧ address.toNat + program.length ≤ 0x1000 ∧
      loaded.programAddress = address ∧ loaded.programLength = program.length := by
  rw [load_eq] at h
  split at h
  · rename_i hstart
    split at h
    · rename_i hroom
      cases h
      exact ⟨hstart.1, hstart.2, hroom, rfl, rfl⟩
    · cases h
  · cases h

end ChipEight.Memory
