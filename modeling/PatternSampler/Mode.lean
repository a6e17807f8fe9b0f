import PatternSampler.Alphabet

/-! # Text and bytes

  Patterns are written over one of two modes, and a pattern of one mode generates values of
  that mode. A mode fixes what a value is, how a value is split into symbols and put together
  again, and the alphabet.
-/

namespace PatternSampler

/-- What patterns and values are made of. -/
inductive Mode where
  /-- Characters. -/
  | text
  /-- Bytes, which are never decoded. -/
  | bytes
deriving DecidableEq, Repr

namespace Mode

/-- The name of a mode in messages. -/
def name : Mode → String
  | text => "Text"
  | bytes => "Bytes"

/-- The values of a mode; its patterns are values too. -/
abbrev Value : Mode → Type
  | text => String
  | bytes => List UInt8

/-- The alphabet of a mode. -/
def alphabet [UnicodeClasses] : Mode → Alphabet
  | text => .text
  | bytes => .bytes

/-- The symbols of a value, one for each character or byte. -/
def symbols : (m : Mode) → m.Value → List Symbol
  | text, value => value.toList.map Symbol.ofChar
  | bytes, value => value.map Symbol.ofByte

/-- The value with the given symbols. Symbols that the mode does not have are left out. -/
def encode : (m : Mode) → List Symbol → m.Value
  | text, symbols => String.ofList (symbols.filterMap Symbol.char?)
  | bytes, symbols => symbols.filterMap Symbol.byte?

end Mode

end PatternSampler
