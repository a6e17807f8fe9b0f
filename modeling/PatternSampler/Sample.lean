import PatternSampler.Pattern.Basic

/-! # One value of one pattern

  The shortest way to a value: give a pattern, of text or of bytes, and get a value of the
  same mode. With a seed the value is reproducible.
-/

namespace PatternSampler

/-- A text or bytes. Patterns and the values they generate are of this form, and a value
    always has the mode of its pattern. -/
inductive Sample where
  /-- A text. -/
  | text (value : String)
  /-- Bytes. -/
  | bytes (value : List UInt8)
deriving DecidableEq, Repr

namespace Sample

/-- The mode of a sample. -/
def mode : Sample → Mode
  | text _ => .text
  | bytes _ => .bytes

/-- The text, if the sample is one. -/
def text? : Sample → Option String
  | text value => some value
  | bytes _ => none

/-- The bytes, if the sample is of bytes. -/
def bytes? : Sample → Option (List UInt8)
  | text _ => none
  | bytes value => some value

end Sample

/-- Compiles a pattern and generates one value with default settings and the given seed;
    `fresh` is the source to use without a seed. -/
def sampleOf [UnicodeClasses] (m : Mode) (pattern : m.Value) (seed : Option UInt64)
    (fresh : Source) : Except Failure m.Value := do
  let compiled ← Pattern.compile m pattern
  compiled.generate { seeding := .ofSeed? seed } fresh

/-- A value of a pattern of either mode. -/
def Sample.generate [UnicodeClasses] (pattern : Sample) (seed : Option UInt64) (fresh : Source) :
    Except Failure Sample :=
  match pattern with
  | text pattern => (sampleOf .text pattern seed fresh).map text
  | bytes pattern => (sampleOf .bytes pattern seed fresh).map bytes

end PatternSampler
