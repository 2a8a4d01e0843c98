import ChipEight.Random.ChaCha

/-!
# Streams of random bytes

A stream is a key and a position: the byte at a position depends on nothing else, so a stream that starts from the same seed gives
the same bytes. Each byte is the lowest of one word of the key's blocks.
-/

namespace ChipEight

/-- Where one is in the bytes of a key. -/
structure ByteStream where
  key : ChaCha.Key
  /-- How many bytes were taken. -/
  position : Nat
  deriving DecidableEq

namespace ByteStream

/-- One step of the generator that spreads a seed over a key, and the word it gives. -/
def spread (state : UInt64) : UInt64 × UInt32 :=
  let state := state * 6364136223846793005 + 11634580027462260723
  let mixed := (((state >>> 18) ^^^ state) >>> 27).toUInt32
  let turn := (state >>> 59).toUInt32
  (state, mixed >>> turn ||| mixed <<< ((32 - turn) % 32))

/-- The words spread from a seed. -/
def spreadWords (state : UInt64) : Nat → List UInt32
  | 0 => []
  | n + 1 => (spread state).2 :: spreadWords (spread state).1 n

theorem length_spreadWords (state : UInt64) (n : Nat) : (spreadWords state n).length = n := by
  induction n generalizing state with
  | zero => rfl
  | succ n ih => simp [spreadWords, ih]

/-- The key of a seed. -/
def keyOfSeed (seed : UInt64) : ChaCha.Key := ⟨(spreadWords seed 8).toArray, by simp [length_spreadWords]⟩

/-- The stream of a seed, from its start. -/
def ofSeed (seed : UInt64) : ByteStream := ⟨keyOfSeed seed, 0⟩

/-- The byte of a key at a position. -/
def byteAt (key : ChaCha.Key) (position : Nat) : UInt8 :=
  let words := ChaCha.block key (UInt64.ofNat (position / 16))
  have : position % 16 < 16 := Nat.mod_lt _ (by decide)
  words[position % 16].toUInt8

/-- Takes the next byte. -/
def next (s : ByteStream) : UInt8 × ByteStream := (byteAt s.key s.position, { s with position := s.position + 1 })

end ByteStream

end ChipEight
