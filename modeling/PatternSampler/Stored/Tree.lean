import PatternSampler.Stored.Primitive
import PatternSampler.Tree

/-! # Stored trees

  A tree is stored as a tag for its kind and then its parts, in the order in which the
  constructors name them. The two sides of a lookaround have tags of their own.
-/

namespace PatternSampler.Stored

/-! ## Parts -/

/-- The number of a shorthand: each class and then its negation, in the order digits, word
    characters, white space. -/
def shorthandTag : Shorthand → Nat
  | ⟨.digit, false⟩ => 0
  | ⟨.digit, true⟩ => 1
  | ⟨.word, false⟩ => 2
  | ⟨.word, true⟩ => 3
  | ⟨.space, false⟩ => 4
  | ⟨.space, true⟩ => 5

/-- The shorthand at the front. -/
def readShorthand : Decoder Shorthand :=
  readTag [⟨.digit, false⟩, ⟨.digit, true⟩, ⟨.word, false⟩, ⟨.word, true⟩, ⟨.space, false⟩,
    ⟨.space, true⟩]

/-- The number of an anchor. -/
def anchorTag : Anchor → Nat
  | .start => 0
  | .finish => 1

/-- The anchor at the front. -/
def readAnchor : Decoder Anchor := readTag [.start, .finish]

/-- The two ends of an interval. -/
def putInterval (i : Interval) : List UInt8 := putWord i.low ++ putWord i.high

/-- The interval at the front. -/
def readInterval : Decoder Interval := return ⟨← readWord, ← readWord⟩

/-- The intervals of a set, as they stand. -/
def putSet (s : SymbolSet) : List UInt8 := putList putInterval s.intervals

/-- The set at the front, with its intervals as they stand. -/
def readSet : Decoder SymbolSet := return ⟨← readList readInterval⟩

/-- The bounds of a repetition. -/
def putBounds (b : Bounds) : List UInt8 := putWord b.least ++ putOption putWord b.most

/-- The bounds at the front. -/
def readBounds : Decoder Bounds := return ⟨← readWord, ← readOption readWord⟩

/-! ## Trees -/

mutual

/-- A tree. -/
def putTree : Tree SymbolSet → List UInt8
  | .literal s => putNumber 0 ++ putWord s
  | .wildcard => putNumber 1
  | .bracket content negated => putNumber 2 ++ putSet content ++ putBool negated
  | .shorthand kind => putNumber 3 ++ putNumber (shorthandTag kind)
  | .concat terms => putNumber 4 ++ putNumber terms.length ++ putTrees terms
  | .alternation branches => putNumber 5 ++ putNumber branches.length ++ putTrees branches
  | .group body capturing name =>
    putNumber 6 ++ putTree body ++ putBool capturing ++ putOption putText name
  | .repetition body bounds greedy =>
    putNumber 7 ++ putTree body ++ putBounds bounds ++ putBool greedy
  | .look .ahead body negative => putNumber 8 ++ putTree body ++ putBool negative
  | .look .behind body negative => putNumber 9 ++ putTree body ++ putBool negative
  | .anchor a => putNumber 10 ++ putNumber (anchorTag a)

/-- Trees, one after the other. -/
def putTrees : List (Tree SymbolSet) → List UInt8
  | [] => []
  | t :: ts => putTree t ++ putTrees ts

end

/-- A tree of at most the given depth. Each level of a tree takes a byte at least, so the
    number of bytes is depth enough, and at depth zero no byte is left. -/
def readTreeWithin : Nat → Decoder (Tree SymbolSet)
  | 0 => throw .endOfBytes
  | depth + 1 => do
    match ← readNumber .word with
    | 0 => return .literal (← readWord)
    | 1 => return .wildcard
    | 2 => return .bracket (← readSet) (← readBool)
    | 3 => return .shorthand (← readShorthand)
    | 4 => return .concat (← readList (readTreeWithin depth))
    | 5 => return .alternation (← readList (readTreeWithin depth))
    | 6 => return .group (← readTreeWithin depth) (← readBool) (← readOption readText)
    | 7 => return .repetition (← readTreeWithin depth) (← readBounds) (← readBool)
    | 8 => return .look .ahead (← readTreeWithin depth) (← readBool)
    | 9 => return .look .behind (← readTreeWithin depth) (← readBool)
    | 10 => return .anchor (← readAnchor)
    | _ => throw .badTag

/-- The tree at the front. -/
def readTree : Decoder (Tree SymbolSet) := fun bytes => readTreeWithin bytes.length bytes

end PatternSampler.Stored
