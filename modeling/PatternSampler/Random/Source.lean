import PatternSampler.Random.Keystream

/-! # Random sources

  A source gives words of 32 and of 64 bits, and changes as it does. Draws take words from it and
  do nothing else with it: a number from a range is a word scaled to the range, corrected by a
  second word where the first alone would favour some numbers by too much. So draws are defined
  for every kind of source (`WordSource`).

  The kind that a seed leads to is an endless stream of 32-bit words with a place in it
  (`Source`). A word of 64 bits is two of its words, low half first.
-/

namespace PatternSampler

/-- A kind of random source, by the states that it can be in. -/
class WordSource (σ : Type) where
  /-- The next word of 32 bits, and the state after it. -/
  next32 : σ → UInt32 × σ
  /-- The next word of 64 bits, and the state after it. -/
  next64 : σ → UInt64 × σ

namespace WordSource

variable {σ : Type} [WordSource σ]

/-! ## Numbers in a range -/

/-- The word sizes that ranges are drawn at. -/
inductive Width where
  /-- 32 bits. -/
  | single
  /-- 64 bits. -/
  | double
deriving DecidableEq, Repr

namespace Width

/-- The number of different words. -/
def size : Width → Nat
  | single => UInt32.size
  | double => UInt64.size

/-- The size used for an index below `count`: single if `count` fits into it. -/
def forCount (count : Nat) : Width := if count < UInt32.size then single else double

end Width

/-- A word of the given size, as a number. -/
def draw (s : σ) : Width → Nat × σ
  | .single => let (x, s) := next32 s; (x.toNat, s)
  | .double => let (x, s) := next64 s; (x.toNat, s)

/-- A number below `range`, which is at most the number of words. The word is multiplied by
    `range`, and the upper half of the product is the number. The lower half tells how close
    the product is to the next number; if a second word, scaled alike, carries it there, the
    number is one more. -/
def below (s : σ) (width : Width) (range : Nat) : Nat × σ :=
  let (x, s) := draw s width
  let product := x * range
  let number := product / width.size
  let fraction := product % width.size
  -- only this close to the next number can a carry reach it
  if width.size - range < fraction then
    let (y, s) := draw s width
    let carry := y * range / width.size
    (if width.size ≤ fraction + carry then number + 1 else number, s)
  else (number, s)

/-- A number from `low` to `high`, both included. A word is taken even where the range holds
    one number. -/
def between (s : σ) (width : Width) (low high : Nat) : Nat × σ :=
  let (offset, s) := below s width (high + 1 - low)
  (low + offset, s)

/-- A 32-bit number from `low` to `high`, both included. -/
def between32 (s : σ) (low high : UInt32) : UInt32 × σ :=
  let (n, s) := between s .single low.toNat high.toNat
  (UInt32.ofNat n, s)

/-- An index below `count`. -/
def index (s : σ) (count : Nat) : Nat × σ :=
  below s (.forCount count) count

end WordSource

/-! ## Streams of words -/

/-- An endless stream of words and the number of words already taken from it. -/
structure Source where
  /-- The words. -/
  word : Nat → UInt32
  /-- How many have been taken. -/
  taken : Nat

namespace Source

/-- The source of a seed. -/
def seeded (seed : UInt64) : Source where
  word := Random.keystream (Random.seedWords seed 8)
  taken := 0

/-- The next word, and the source after it. -/
def next32 (s : Source) : UInt32 × Source :=
  (s.word s.taken, { s with taken := s.taken + 1 })

/-- The next two words as one of 64 bits, low half first. -/
def next64 (s : Source) : UInt64 × Source :=
  let (low, s) := s.next32
  let (high, s) := s.next32
  (low.toUInt64 ||| (high.toUInt64 <<< 32), s)

instance : WordSource Source := ⟨next32, next64⟩

end Source

end PatternSampler
