/-! # Stored numbers, flags and texts

  The stored form is a row of bytes without any marks for names or lengths of records: it is
  read by who knows what comes next. Writing gives a list of bytes; reading takes a value off
  the front of a list and gives it with the bytes that are left.

  - A number is written seven bits to a byte, lowest first; the high bit says that more
    follow. Reading accepts leading zeros, but only as many bytes as the number's width has
    room for.
  - A truth value, and whether an optional value is there, is a byte 0 or 1.
  - A text is the number of its bytes, then its UTF-8 bytes.
  - A list is the number of its items, then the items.
-/

namespace PatternSampler.Stored

/-- Why stored bytes cannot be read. -/
inductive DecodeError where
  /-- The bytes end too early. -/
  | endOfBytes
  /-- A number has more bytes or bits than its width has room for. -/
  | numberTooWide
  /-- A truth value is neither 0 nor 1. -/
  | badBool
  /-- The mark of an optional value is neither 0 nor 1. -/
  | badOption
  /-- A text is not UTF-8. -/
  | badText
  /-- A tag names no alternative. -/
  | badTag
deriving DecidableEq, Repr

/-- The error in words. -/
def DecodeError.message : DecodeError → String
  | endOfBytes => "Hit the end of buffer, expected more data"
  | numberTooWide =>
    "Found a varint that didn't terminate. Is the usize too big for this platform?"
  | badBool => "Found a bool that wasn't 0 or 1"
  | badOption => "Found an Option discriminant that wasn't 0 or 1"
  | badText => "Tried to parse invalid utf-8"
  | badTag => "Serde Deserialization Error"

/-- Takes a value off the front of a list of bytes. -/
abbrev Decoder := StateT (List UInt8) (Except DecodeError)

/-! ## Bytes -/

/-- The next byte. -/
def readByte : Decoder UInt8
  | [] => .error .endOfBytes
  | b :: rest => .ok (b, rest)

/-- The next `n` bytes. -/
def readBytes (n : Nat) : Decoder (List UInt8) := fun bytes =>
  if n ≤ bytes.length then .ok (bytes.take n, bytes.drop n) else .error .endOfBytes

/-! ## Numbers -/

/-- A number, seven bits to a byte, lowest first. -/
def putNumber (n : Nat) : List UInt8 :=
  if n < 128 then [UInt8.ofNat n] else UInt8.ofNat (n % 128 + 128) :: putNumber (n / 128)
termination_by n
decreasing_by omega

/-- How many bytes a number may take, and the greatest value of the last one of them. -/
structure NumberWidth where
  /-- The most bytes. -/
  bytes : Nat
  /-- The greatest last byte, if all bytes are used. -/
  lastByte : Nat

/-- Numbers of 32 bits: four bytes of seven bits, and four bits more. -/
def NumberWidth.word : NumberWidth := ⟨5, 15⟩

/-- Numbers of 64 bits: nine bytes of seven bits, and one bit more. -/
def NumberWidth.long : NumberWidth := ⟨10, 1⟩

/-- A number of at most `n` bytes, the last of which may be `lastByte` at most. -/
def readDigits (lastByte : Nat) : Nat → Decoder Nat
  | 0 => throw .numberTooWide
  | n + 1 => do
    let b ← readByte
    if b.toNat < 128 then
      -- the last byte there is room for holds only the top bits of the width
      if n = 0 ∧ lastByte < b.toNat then throw .numberTooWide
      return b.toNat
    else
      let high ← readDigits lastByte n
      return b.toNat - 128 + 128 * high

/-- A number of the given width. -/
def readNumber (width : NumberWidth) : Decoder Nat := readDigits width.lastByte width.bytes

/-- A 32-bit number. -/
def putWord (x : UInt32) : List UInt8 := putNumber x.toNat

/-- A 32-bit number. -/
def readWord : Decoder UInt32 := return UInt32.ofNat (← readNumber .word)

/-- A 64-bit number. -/
def putLong (x : UInt64) : List UInt8 := putNumber x.toNat

/-- A 64-bit number. -/
def readLong : Decoder UInt64 := return UInt64.ofNat (← readNumber .long)

/-! ## Alternatives -/

/-- The alternative at a number of a table. -/
def readTag {α : Type} (table : List α) : Decoder α := do
  match table[← readNumber .word]? with
  | some alternative => return alternative
  | none => throw .badTag

/-- A truth value. -/
def putBool (b : Bool) : List UInt8 := [if b then 1 else 0]

/-- A truth value. -/
def readBool : Decoder Bool := do
  match ← readByte with
  | 0 => return false
  | 1 => return true
  | _ => throw .badBool

/-- An optional value. -/
def putOption {α : Type} (put : α → List UInt8) : Option α → List UInt8
  | none => [0]
  | some value => 1 :: put value

/-- An optional value. -/
def readOption {α : Type} (read : Decoder α) : Decoder (Option α) := do
  match ← readByte with
  | 0 => return none
  | 1 => return some (← read)
  | _ => throw .badOption

/-! ## Lists and texts -/

/-- `n` values, one after the other. -/
def readMany {α : Type} (read : Decoder α) : Nat → Decoder (List α)
  | 0 => return []
  | n + 1 => do
    let first ← read
    let others ← readMany read n
    return first :: others

/-- A list of values. -/
def putList {α : Type} (put : α → List UInt8) (items : List α) : List UInt8 :=
  putNumber items.length ++ items.flatMap put

/-- A list of values. -/
def readList {α : Type} (read : Decoder α) : Decoder (List α) := do
  readMany read (← readNumber .long)

/-- A text. -/
def putText (s : String) : List UInt8 :=
  putNumber s.utf8ByteSize ++ s.toUTF8.toList

/-- A text. -/
def readText : Decoder String := do
  let bytes ← readBytes (← readNumber .long)
  match String.fromUTF8? (.mk bytes.toArray) with
  | some s => return s
  | none => throw .badText

end PatternSampler.Stored
