import PatternSampler.Symbol

/-! # Shorthands for classes of characters

  The six shorthands of the pattern notation, `\d`, `\w` and `\s` and their negations
  `\D`, `\W` and `\S`: which class of characters each one names, and whether it names the
  characters in the class or those outside.
-/

namespace PatternSampler

/-- A class of characters that a shorthand can name. -/
inductive CharClass where
  /-- Digits. -/
  | digit
  /-- Letters, digits and connecting punctuation. -/
  | word
  /-- White space. -/
  | space
deriving DecidableEq, Repr

/-- A shorthand: the characters of a class, or all others. -/
structure Shorthand where
  /-- The class that is named. -/
  charClass : CharClass
  /-- Whether the shorthand stands for the symbols outside its class. -/
  negated : Bool
deriving DecidableEq, Repr

namespace Shorthand

/-- The shorthand written as a backslash and the given letter. Small letters name a
    class, capitals its complement. -/
def ofLetter? (letter : Symbol) : Option Shorthand :=
  match Symbol.char? letter with
  | some 'd' => some ⟨.digit, false⟩
  | some 'D' => some ⟨.digit, true⟩
  | some 'w' => some ⟨.word, false⟩
  | some 'W' => some ⟨.word, true⟩
  | some 's' => some ⟨.space, false⟩
  | some 'S' => some ⟨.space, true⟩
  | _ => none

/-- The shorthand of the same class without negation. -/
def base (k : Shorthand) : Shorthand := ⟨k.charClass, false⟩

/-- The shorthand of the same class with the other sign. -/
def opposite (k : Shorthand) : Shorthand := ⟨k.charClass, !k.negated⟩

@[simp] theorem opposite_opposite (k : Shorthand) : k.opposite.opposite = k := by
  simp [opposite]

end Shorthand

end PatternSampler
