/-!
# The ChaCha block function

Sixteen 32-bit words are stirred by twelve rounds and added to what they were. The words are four constants, eight words of key, a
64-bit block counter and two zeros.
-/

namespace ChipEight.ChaCha

/-- The words a block is made from, and those of the block. -/
abbrev Block := Vector UInt32 16

/-- A key. -/
abbrev Key := Vector UInt32 8

/-- A word turned left by some bits, more than none and fewer than all. -/
def rotateLeft (word : UInt32) (bits : UInt32) : UInt32 := word <<< bits ||| word >>> (32 - bits)

/-- Stirs four words of a block. -/
def quarterRound (s : Block) (i j k l : Nat) (_ : i < 16 ∧ j < 16 ∧ k < 16 ∧ l < 16 := by decide) : Block :=
  let a := s[i]
  let b := s[j]
  let c := s[k]
  let d := s[l]
  let a := a + b
  let d := rotateLeft (d ^^^ a) 16
  let c := c + d
  let b := rotateLeft (b ^^^ c) 12
  let a := a + b
  let d := rotateLeft (d ^^^ a) 8
  let c := c + d
  let b := rotateLeft (b ^^^ c) 7
  (((s.set i a).set j b).set k c).set l d

/-- Two rounds, one along the columns and one along the diagonals. -/
def doubleRound (s : Block) : Block :=
  let s := quarterRound s 0 4 8 12
  let s := quarterRound s 1 5 9 13
  let s := quarterRound s 2 6 10 14
  let s := quarterRound s 3 7 11 15
  let s := quarterRound s 0 5 10 15
  let s := quarterRound s 1 6 11 12
  let s := quarterRound s 2 7 8 13
  quarterRound s 3 4 9 14

/-- The words a block is made from. -/
def input (key : Key) (counter : UInt64) : Block :=
  #v[0x61707865, 0x3320646e, 0x79622d32, 0x6b206574,
    key[0], key[1], key[2], key[3], key[4], key[5], key[6], key[7],
    counter.toUInt32, (counter >>> 32).toUInt32, 0, 0]

/-- The block of a key at a counter. -/
def block (key : Key) (counter : UInt64) : Block :=
  let words := input key counter
  let stirred := doubleRound (doubleRound (doubleRound (doubleRound (doubleRound (doubleRound words)))))
  Vector.zipWith (· + ·) stirred words

end ChipEight.ChaCha
