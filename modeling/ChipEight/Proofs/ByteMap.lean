import ChipEight.Proofs.Guarded.Memory
import ChipEight.Proofs.Lemmas.Decode
import Mathlib.Data.List.Induction

/-!
# Memory as a map of bytes

After any history of writings a byte is what was last written to it, or what it was when the memory was made (`Memory.holds`). An
access to a span succeeds exactly when the span ends inside memory, however long it is and wherever it starts, and one that does not
succeed changes nothing. The ways to read agree with each other, in what they give and in the fault they end with
(`Memory.ByteMap`).
-/

namespace ChipEight.Memory

/-- One way to write to memory. -/
inductive Writing where
  | write (address : Nat) (data : List UInt8)
  | setByte (address : Nat) (value : UInt8)
  | fill (address length : Nat) (value : UInt8)
  | load (program : List UInt8) (address : UInt16)
  deriving DecidableEq

namespace Writing

/-- Where the span of a writing starts. -/
def start : Writing → Nat
  | .write address _ | .setByte address _ | .fill address _ _ => address
  | .load _ address => address.toNat

/-- The bytes that a writing is to put into its span. -/
def data : Writing → List UInt8
  | .write _ data => data
  | .setByte _ value => [value]
  | .fill _ length value => List.replicate length value
  | .load program _ => program

/-- Whether a writing is the loading of a program. -/
def isLoad : Writing → Bool
  | .load _ _ => true
  | _ => false

/-- Whether a writing succeeds: its span ends in memory, or for a program, it lies in the region that can be executed. -/
def fits : Writing → Bool
  | .load program address =>
    decide (0x200 ≤ address.toNat) && decide (address.toNat < 0x1000) && decide (address.toNat + program.length ≤ 0x1000)
  | w => decide (w.start + w.data.length ≤ 0x10000)

/-- The byte that a writing puts at an address, if it succeeds and the address is in its span. -/
def put? (a : Nat) (w : Writing) : Option UInt8 :=
  if w.fits = true ∧ w.start ≤ a then w.data[a - w.start]? else none

end Writing

/-- Does a writing. -/
def perform (m : Memory) : Writing → Except Fault Memory
  | .write address data => m.write address data
  | .setByte address value => m.setByte address value
  | .fill address length value => m.fill address length value
  | .load program address => m.load program address

/-- The memory after a writing that may have failed. -/
def attempt (m : Memory) (w : Writing) : Memory :=
  match m.perform w with
  | .ok written => written
  | .error _ => m

/-- A new memory after a history of writings, the oldest first. -/
def after (history : List Writing) : Memory := history.foldl attempt fresh

/-- The byte that memory has at an address when it is made: the font from 0x1000 on, and zero elsewhere. -/
def initial (a : Nat) : UInt8 := if 0x1000 ≤ a then Font.glyphs[a - 0x1000]?.getD 0 else 0

/-- The byte that a history leaves at an address: what was last written there, or else what was there at first. -/
def holds (history : List Writing) (a : Nat) : UInt8 := (history.filterMap (Writing.put? a)).getLast?.getD (initial a)

/-! ## One writing -/

/-- What a run of pokes leaves at an address in memory. -/
theorem peek_pokeAll (m : Memory) (address : Nat) (data : List UInt8) {a : Nat} (h : a < size) :
    (m.pokeAll address data).peek a = (if address ≤ a then data[a - address]? else none).getD (m.peek a) := by
  by_cases hstart : address ≤ a
  · obtain ⟨i, rfl⟩ := Nat.exists_eq_add_of_le hstart
    rw [if_pos hstart, Nat.add_sub_cancel_left]
    by_cases hi : i < data.length
    · rw [peek_pokeAll_getElem m hi h, List.getElem?_eq_getElem hi, Option.getD_some]
    · rw [peek_pokeAll_of_le m (by omega), List.getElem?_eq_none (Nat.not_lt.mp hi), Option.getD_none]
  · rw [if_neg hstart, peek_pokeAll_of_lt m data (Nat.not_le.mp hstart), Option.getD_none]

/-- A writing of a span succeeds when the span ends in memory, and then it pokes its bytes there. -/
theorem perform_of_not_load (m : Memory) {w : Writing} (h : w.isLoad = false) :
    m.perform w =
      if w.start + w.data.length ≤ size then .ok (m.pokeAll w.start w.data) else .error (.outOfRange (max w.start size)) := by
  cases w with
  | write address data => exact write_eq m address data
  | setByte address value => exact setByte_eq m address value
  | fill address length value =>
    rw [Writing.data, List.length_replicate]
    exact fill_eq m address length value
  | load program address => cases h

/-- A writing either fits and pokes its bytes, or it fails. -/
theorem perform_cases (m : Memory) (w : Writing) :
    (w.fits = true ∧ ∃ written, m.perform w = .ok written ∧ ∀ a, written.peek a = (m.pokeAll w.start w.data).peek a) ∨
      (w.fits = false ∧ ∃ f, m.perform w = .error f) := by
  have hspan : w.isLoad = false → w.fits = decide (w.start + w.data.length ≤ size) := by
    intro h
    cases w with
    | load => cases h
    | _ => rfl
  cases hload : w.isLoad with
  | false =>
    rw [perform_of_not_load m hload, hspan hload]
    by_cases hs : w.start + w.data.length ≤ size
    · exact .inl ⟨decide_eq_true hs, _, if_pos hs, fun _ => rfl⟩
    · exact .inr ⟨decide_eq_false hs, _, if_neg hs⟩
  | true =>
    cases w with
    | load program address =>
      rw [perform, load_eq]
      by_cases hstart : 0x200 ≤ address.toNat ∧ address.toNat < 0x1000
      · by_cases hroom : address.toNat + program.length ≤ 0x1000
        · refine .inl ⟨by simp [Writing.fits, hstart, hroom], _, by rw [if_pos hstart, if_pos hroom], ?_⟩
          intro a
          rfl
        · exact .inr ⟨by simp [Writing.fits, hroom], _, by rw [if_pos hstart, if_neg hroom]⟩
      · refine .inr ⟨?_, _, if_neg hstart⟩
        rw [Writing.fits, ← Bool.decide_and, decide_eq_false hstart, Bool.false_and]
    | _ => cases hload

/-- A writing leaves at an address what it puts there, or else what was there. -/
theorem peek_attempt (m : Memory) (w : Writing) {a : Nat} (h : a < size) :
    (m.attempt w).peek a = (w.put? a).getD (m.peek a) := by
  rcases perform_cases m w with ⟨hfits, written, hperform, hpeek⟩ | ⟨hfits, f, hperform⟩
  · have hattempt : m.attempt w = written := by rw [attempt, hperform]
    rw [hattempt, hpeek, peek_pokeAll m _ _ h, Writing.put?]
    simp [hfits]
  · have hattempt : m.attempt w = m := by rw [attempt, hperform]
    rw [hattempt, Writing.put?]
    simp [hfits]

/-! ## A history of writings -/

/-- A byte in memory is an entry of the list of bytes. -/
theorem peek_eq_getElem? (m : Memory) {a : Nat} (h : a < size) : m.peek a = m.bytes.data.toList[a]?.getD 0 := by
  have hinside : a < m.bytes.data.toList.length := by
    have hsize : m.bytes.data.size = size := m.size_bytes
    rwa [Array.length_toList, hsize]
  rw [peek, dif_pos h, List.getElem?_eq_getElem hinside]
  rfl

/-- An entry of a list with zeros before and behind it. -/
theorem getElem?_between_zeros (before behind : Nat) (bytes : List UInt8) (a : Nat) :
    (List.replicate before 0 ++ bytes ++ List.replicate behind 0)[a]?.getD 0 =
      if before ≤ a then bytes[a - before]?.getD 0 else 0 := by
  simp only [List.getElem?_append, List.length_append, List.length_replicate, List.getElem?_replicate]
  by_cases hfront : a < before
  · have hbytes : a < before + bytes.length := by omega
    simp [hfront, hbytes, Nat.not_le.mpr hfront]
  · by_cases hbytes : a < before + bytes.length
    · simp [hfront, hbytes, Nat.not_lt.mp hfront]
    · have hbehind : bytes.length ≤ a - before := by omega
      simp only [if_neg hbytes, if_pos (Nat.not_lt.mp hfront), List.getElem?_eq_none hbehind]
      split <;> rfl

/-- A new memory holds the font and zeros. -/
theorem peek_fresh {a : Nat} (h : a < size) : fresh.peek a = initial a := by
  rw [peek_eq_getElem? fresh h]
  exact getElem?_between_zeros 0x1000 _ Font.glyphs a

/-- After any history every byte is the one last written, or the first one. -/
theorem peek_after (history : List Writing) {a : Nat} (h : a < size) : (after history).peek a = holds history a := by
  induction history using List.reverseRecOn with
  | nil => exact peek_fresh h
  | append_singleton history w ih =>
    have hafter : after (history ++ [w]) = (after history).attempt w := by simp [after]
    rw [hafter, peek_attempt _ _ h, ih, holds, holds, List.filterMap_append, List.getLast?_append]
    cases hput : w.put? a <;> simp [hput]

/-! ## The ways to read -/

/-- A slice is the bytes of its span. -/
theorem read_eq_range' (m : Memory) (address length : Nat) :
    m.read address length =
      if address + length ≤ size then .ok ((List.range' address length).map m.peek)
      else .error (.outOfRange (max address size)) := by
  rw [read_eq, List.range'_eq_map_range, List.map_map]
  rfl

/-- A slice of at least one byte is read as its bytes are, one after the other, and ends with the fault of the first that cannot be
read. -/
theorem read_eq_mapM (m : Memory) (address : Nat) {length : Nat} (h : 0 < length) :
    m.read address length = (List.range' address length).mapM m.byte := by
  induction length generalizing address with
  | zero => cases h
  | succ length ih =>
    rw [List.range'_succ, List.mapM_cons, byte_eq, read_eq_range', List.range'_succ]
    by_cases hfirst : address + 1 ≤ size
    · rw [if_pos hfirst]
      cases length with
      | zero => rw [if_pos hfirst]; rfl
      | succ length =>
        -- the faults agree, since what is behind a byte in memory starts at the end of memory at the latest
        have hfault : max (address + 1) size = max address size := by omega
        have hspan : address + 1 + (length + 1) = address + (length + 1 + 1) := by omega
        rw [← ih (address + 1) (Nat.succ_pos length), read_eq_range', hfault, hspan]
        by_cases hs : address + (length + 1 + 1) ≤ size
        · rw [if_pos hs, if_pos hs]
          rfl
        · rw [if_neg hs, if_neg hs]
          rfl
    · rw [if_neg hfirst, if_neg (by omega)]
      rfl

/-- A word is read as its two bytes are, the high one first. -/
theorem word_eq_bytes (m : Memory) (address : Nat) :
    (m.word address).map (fun op => op.word.toNat) =
      (do
        let high ← m.byte address
        let low ← m.byte (address + 1)
        return 256 * high.toNat + low.toNat) := by
  rw [word_eq, byte_eq, byte_eq]
  by_cases hfirst : address + 1 ≤ size
  · have hfault : max (address + 1) size = max address size := by omega
    rw [if_pos hfirst, hfault]
    by_cases hsecond : address + 2 ≤ size
    · rw [if_pos hsecond, if_pos hsecond]
      exact congrArg Except.ok (Opcode.toNat_ofBytes _ _)
    · rw [if_neg hsecond, if_neg hsecond]
      rfl
  · have hsecond : ¬address + 2 ≤ size := by omega
    rw [if_neg hfirst, if_neg hsecond]
    rfl

/-! ## The map of bytes -/

/-- What a memory with a history does as a map of bytes. -/
structure ByteMap (history : List Writing) (m : Memory) : Prop where
  /-- A writing of a span succeeds exactly when the span ends in memory. Then the bytes of its span are the ones it was given, and no
  other byte has changed. Otherwise nothing has. -/
  write : ∀ w : Writing, w.isLoad = false →
    if w.start + w.data.length ≤ 0x10000 then
      ∃ written, m.perform w = .ok written ∧ m.attempt w = written ∧
        (∀ i (h : i < w.data.length), written.byte (w.start + i) = .ok w.data[i]) ∧
        ∀ a, a < w.start ∨ w.start + w.data.length ≤ a → written.byte a = m.byte a
    else m.perform w = .error (.outOfRange (max w.start 0x10000)) ∧ m.attempt w = m
  /-- A program that is loaded is written to where it is loaded. -/
  load : ∀ program address loaded, m.load program address = .ok loaded →
    ∃ written, m.write address.toNat program = .ok written ∧ ∀ a, loaded.byte a = written.byte a
  /-- A slice can be read exactly when its span ends in memory, and it is what the history left there. -/
  read : ∀ address length, m.read address length =
    if address + length ≤ 0x10000 then .ok ((List.range' address length).map (holds history))
    else .error (.outOfRange (max address 0x10000))
  /-- A byte is what the history left there. -/
  byte : ∀ a, m.byte a = if a + 1 ≤ 0x10000 then .ok (holds history a) else .error (.outOfRange (max a 0x10000))
  /-- A word is 256 times its first byte and its second, and ends with the fault of the first of them that cannot be read. -/
  word : ∀ a, (m.word a).map (fun op => op.word.toNat) =
    (do
      let high ← m.byte a
      let low ← m.byte (a + 1)
      return 256 * high.toNat + low.toNat)
  /-- A slice of at least one byte is its bytes, read one by one, and ends with the fault of the first that cannot be read. -/
  bytes : ∀ address length, 0 < length → m.read address length = (List.range' address length).mapM m.byte
  /-- An access that adds up the end of its span in 64 bits, where the sum may overflow, comes to the same. -/
  wide : (∀ address length, Guarded.slice m address length = .ok (m.read address length)) ∧
    ∀ address data, Guarded.write m address data = .ok (m.write address data)

/-- After any history of writings, of any length and at any address, memory is a map of bytes. -/
theorem byteMap_after (history : List Writing) : ByteMap history (after history) where
  write := by
    intro w hload
    have hperform := perform_of_not_load (after history) hload
    split
    · rename_i hs
      have hfits : w.start + w.data.length ≤ size := hs
      rw [if_pos hfits] at hperform
      refine ⟨_, hperform, by rw [attempt, hperform], ?_, ?_⟩
      · intro i hi
        have hin : w.start + i < size := Nat.lt_of_lt_of_le (Nat.add_lt_add_left hi _) hfits
        rw [byte_eq, if_pos (Nat.succ_le_of_lt hin), peek_pokeAll_getElem _ hi hin]
      · intro a ha
        rw [byte_eq, byte_eq, peek_pokeAll_of_outside _ w.data.length (Nat.le_refl _) ha]
    · rename_i hs
      have hmisses : ¬w.start + w.data.length ≤ size := hs
      rw [if_neg hmisses] at hperform
      exact ⟨hperform, by rw [attempt, hperform]⟩
  load := by
    intro program address loaded h
    have hspan : address.toNat + program.length ≤ size := by
      have hroom := (of_load_eq_ok h).2.2.1
      have hsize : size = 0x10000 := rfl
      omega
    refine ⟨_, by rw [write_eq, if_pos hspan], ?_⟩
    intro a
    rcases perform_cases (after history) (.load program address) with ⟨-, written, hperform, hpeek⟩ | ⟨-, f, hperform⟩
    · obtain rfl : loaded = written := Except.ok.inj (h.symm.trans hperform)
      rw [byte_eq, byte_eq, hpeek]
      rfl
    · cases h.symm.trans hperform
  read := by
    intro address length
    rw [read_eq_range']
    split
    · rename_i hs
      have hholds : (List.range' address length).map (after history).peek = (List.range' address length).map (holds history) := by
        apply List.map_congr_left
        intro a ha
        rw [List.mem_range'_1] at ha
        exact peek_after history (Nat.lt_of_lt_of_le ha.2 hs)
      rw [hholds]
      exact (if_pos hs).symm
    · rename_i hs
      exact (if_neg hs).symm
  byte := by
    intro a
    rw [byte_eq]
    split
    · rename_i hs
      rw [peek_after history hs]
      exact (if_pos hs).symm
    · rename_i hs
      exact (if_neg hs).symm
  word := word_eq_bytes _
  bytes := by
    intro address length h
    exact read_eq_mapM _ address h
  wide := ⟨Guarded.slice_eq _, Guarded.write_eq _⟩

end ChipEight.Memory
