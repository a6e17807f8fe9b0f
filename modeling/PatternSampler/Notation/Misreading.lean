import PatternSampler.Failure
import PatternSampler.Text.Escape

/-! # Reasons for refusing a pattern

  A pattern is refused for a `Fault` (it breaks the rules of the notation) or for a
  `Construct` (it follows the rules of a wider notation, of which this part is left out).
  The words for both are given here once.
-/

namespace PatternSampler.Notation

/-- A breach of the rules of the notation. -/
inductive Fault where
  /-- The pattern ends where more has to follow. -/
  | endOfPattern
  /-- The pattern ends after a backslash. -/
  | endAfterBackslash
  /-- A backslash stands before a symbol that has no meaning there; the symbol's character,
      if it has one. -/
  | badEscape (escaped : Option Char)
  /-- A quantifier has no term before it that can be repeated. -/
  | nothingToRepeat
  /-- A quantifier follows a quantified term. -/
  | multipleRepeat
  /-- A number in braces does not fit into 32 bits. -/
  | numberTooLarge
  /-- The least number of repetitions is greater than the greatest. -/
  | boundsReversed
  /-- A closing parenthesis closes nothing. -/
  | unbalancedParenthesis
  /-- A group is not closed. -/
  | unterminatedGroup
  /-- A bracket is not closed. -/
  | unterminatedBracket
  /-- The ends of a range in a bracket are not two symbols in order. -/
  | badRange
  /-- The characters after `(?` open no kind of group. -/
  | unknownExtension (first : Char)
  /-- A group's name is empty. -/
  | missingName
  /-- A character cannot stand at its place in a group's name. -/
  | badNameCharacter
  /-- A group's name is not closed. -/
  | unterminatedName
deriving DecidableEq, Repr

/-- A construct that is recognised and not supported. -/
inductive Construct where
  /-- A reference to what a numbered group matched. -/
  | backreference
  /-- A reference to what a named group matched. -/
  | namedBackreference
  /-- A call of the pattern, or of one of its groups, inside itself. -/
  | recursion
  /-- A group that depends on whether another one matched. -/
  | conditional
  /-- A comment in parentheses. -/
  | comment
  /-- Flags set in the middle of a pattern. -/
  | inlineFlags
deriving DecidableEq, Repr

/-- The fault in words. -/
def Fault.reason : Fault → String
  | endOfPattern => "unexpected end of pattern"
  | endAfterBackslash => "bad escape (end of pattern)"
  | badEscape (some c) => "bad escape \\" ++ Text.shown c
  | badEscape none => "bad escape"
  | nothingToRepeat => "nothing to repeat"
  | multipleRepeat => "multiple repeat"
  | numberTooLarge => "the repetition number is too large"
  | boundsReversed => "min repeat greater than max repeat"
  | unbalancedParenthesis => "unbalanced parenthesis"
  | unterminatedGroup => "missing ), unterminated subpattern"
  | unterminatedBracket => "unterminated character set"
  | badRange => "bad character range"
  | unknownExtension c => "unknown extension ?" ++ Text.shown c
  | missingName => "missing group name"
  | badNameCharacter => "bad character in group name"
  | unterminatedName => "missing >, unterminated name"

/-- The construct in words. -/
def Construct.label : Construct → String
  | backreference => "backreference"
  | namedBackreference => "named backreference"
  | recursion => "recursive pattern"
  | conditional => "conditional group"
  | comment => "comment group"
  | inlineFlags => "inline flags"

/-- Why a pattern is refused, and the number of symbols before the place that is to blame. -/
inductive Misreading where
  /-- A breach of the rules. -/
  | malformed (position : Nat) (fault : Fault)
  /-- A construct without support. -/
  | unsupported (position : Nat) (construct : Construct)
deriving DecidableEq, Repr

namespace Misreading

/-- The place to blame. -/
def position : Misreading → Nat
  | malformed position _ => position
  | unsupported position _ => position

/-- The failure to report. -/
def failure : Misreading → Failure
  | malformed position fault => .malformed position fault.reason
  | unsupported position construct => .unsupported position construct.label

@[simp] theorem recoverable_failure (m : Misreading) : m.failure.recoverable = false := by
  cases m <;> rfl

end Misreading

end PatternSampler.Notation
