/-! # Symbols

  Patterns and generated values are lists of symbols. A symbol is a 32-bit number:

  - in a text, the code point of a character;
  - in a byte string, the byte;
  - over a custom alphabet, any number at all.

  Only a symbol whose number is that of a Unicode character can mean something in a
  pattern's notation; `Symbol.char?` is the one place where that is decided.
-/

namespace PatternSampler

/-- One unit of a pattern or of a generated value. -/
abbrev Symbol := UInt32

namespace Symbol

/-- The character with the symbol's number: none for surrogates and for numbers past
    the last code point. -/
def char? (s : Symbol) : Option Char :=
  if h : s.isValidChar then some ⟨s, h⟩ else none

/-- The symbol of a character. -/
def ofChar (c : Char) : Symbol := c.val

@[simp] theorem char?_ofChar (c : Char) : char? (ofChar c) = some c := by
  simp [char?, ofChar, c.valid]

/-- A symbol has one character at most, and it is the symbol of that character. -/
theorem char?_eq_some_iff {s : Symbol} {c : Char} : char? s = some c ↔ s = ofChar c := by
  constructor
  · intro h
    unfold char? at h
    split at h
    · cases h
      rfl
    · cases h
  · rintro rfl
    exact char?_ofChar c

/-- The symbol of a byte. -/
def ofByte (b : UInt8) : Symbol := b.toUInt32

/-- The byte with the symbol's number, if there is one. -/
def byte? (s : Symbol) : Option UInt8 :=
  if s.toNat < 256 then some s.toUInt8 else none

end Symbol

end PatternSampler
