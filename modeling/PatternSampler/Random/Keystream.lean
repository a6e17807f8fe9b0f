/-! # The keystream of a seed

  A 64-bit seed is stretched to a 256-bit key, and the key to an endless stream of 32-bit
  words, the ChaCha stream with 12 rounds. Each block of 16 words is computed from the key and
  the block's number alone, so a word can be had without those before it.
-/

namespace PatternSampler.Random

/-! ## Key -/

/-- The rotation of a word to the left. Shifts take their amount modulo 32, so that a
    rotation by zero changes nothing. -/
def rotateLeft (x n : UInt32) : UInt32 := (x <<< n) ||| (x >>> (32 - n))

/-- The rotation of a word to the right. -/
def rotateRight (x n : UInt32) : UInt32 := (x >>> n) ||| (x <<< (32 - n))

/-- The next state of the linear congruential generator that stretches a seed. -/
def advanceSeed (s : UInt64) : UInt64 := s * 6364136223846793005 + 11634580027462260723

/-- The word that a state of the generator gives: its upper half, mixed, then rotated by its
    five highest bits. -/
def seedWord (s : UInt64) : UInt32 :=
  rotateRight (((s >>> 18) ^^^ s) >>> 27).toUInt32 (s >>> 59).toUInt32

/-- The first `n` words from a seed. -/
def seedWords (s : UInt64) : Nat → List UInt32
  | 0 => []
  | n + 1 => seedWord (advanceSeed s) :: seedWords (advanceSeed s) n

/-! ## Blocks -/

/-- Sixteen words. -/
abbrev Block := Vector UInt32 16

/-- The quarter round on four words of a block. -/
def quarterRound (block : Block) (a b c d : Fin 16) : Block :=
  let block := block.set a (block[a] + block[b])
  let block := block.set d (rotateLeft (block[d] ^^^ block[a]) 16)
  let block := block.set c (block[c] + block[d])
  let block := block.set b (rotateLeft (block[b] ^^^ block[c]) 12)
  let block := block.set a (block[a] + block[b])
  let block := block.set d (rotateLeft (block[d] ^^^ block[a]) 8)
  let block := block.set c (block[c] + block[d])
  block.set b (rotateLeft (block[b] ^^^ block[c]) 7)

/-- Two rounds: the columns of the block as a square of four by four, then its diagonals. -/
def doubleRound (block : Block) : Block :=
  let block := quarterRound block 0 4 8 12
  let block := quarterRound block 1 5 9 13
  let block := quarterRound block 2 6 10 14
  let block := quarterRound block 3 7 11 15
  let block := quarterRound block 0 5 10 15
  let block := quarterRound block 1 6 11 12
  let block := quarterRound block 2 7 8 13
  quarterRound block 3 4 9 14

/-- The block before the rounds: four constant words, the key, the block's number in two
    words and two words of zero. -/
def initialBlock (key : List UInt32) (number : Nat) : Block :=
  let words := [0x61707865, 0x3320646e, 0x79622d32, 0x6b206574] ++ key ++
    [UInt32.ofNat number, UInt32.ofNat (number / UInt32.size)]
  Vector.ofFn fun i => words.getD i 0

/-- The block with a given number: twelve rounds, then the initial block added word by word. -/
def block (key : List UInt32) (number : Nat) : Block :=
  let initial := initialBlock key number
  let mixed := doubleRound (doubleRound (doubleRound (doubleRound (doubleRound
    (doubleRound initial)))))
  Vector.zipWith (· + ·) mixed initial

/-- Word `index` of the stream under a key. -/
def keystream (key : List UInt32) (index : Nat) : UInt32 :=
  (block key (index / 16)).toArray.getD (index % 16) 0

end PatternSampler.Random
