import PatternSampler.Pattern.Basic
import PatternSampler.Text.Escape

/-! # Describing a pattern

  The tree of a compiled pattern written out on one line, each node by its name with its
  parts: positional parts in parentheses, named parts in braces, lists in brackets.
-/

namespace PatternSampler

namespace Description

/-- A name with positional parts. -/
def tuple (name : String) (parts : List String) : String :=
  name ++ "(" ++ String.intercalate ", " parts ++ ")"

/-- A list. -/
def list (items : List String) : String := "[" ++ String.intercalate ", " items ++ "]"

/-- A name with named parts. -/
def record (name : String) (fields : List (String × String)) : String :=
  name ++ " \x7b " ++ String.intercalate ", " (fields.map fun (field, value) =>
    field ++ ": " ++ value) ++ " \x7d"

/-- An optional part. -/
def optional : Option String → String
  | none => "None"
  | some value => tuple "Some" [value]

/-- A shorthand by name. -/
def shorthand : Shorthand → String
  | ⟨.digit, false⟩ => "Digit"
  | ⟨.digit, true⟩ => "NotDigit"
  | ⟨.word, false⟩ => "Word"
  | ⟨.word, true⟩ => "NotWord"
  | ⟨.space, false⟩ => "Space"
  | ⟨.space, true⟩ => "NotSpace"

/-- An anchor by name. -/
def anchor : Anchor → String
  | .start => "Start"
  | .finish => "End"

/-- A side by the name of the lookaround to it. -/
def side : Side → String
  | .ahead => "Lookahead"
  | .behind => "Lookbehind"

/-- A set by its intervals. -/
def symbolSet (s : SymbolSet) : String :=
  record "RangeSet" [("ranges", list (s.intervals.map fun i =>
    tuple "" [toString i.low, toString i.high]))]

mutual

/-- A tree. -/
def tree : Tree SymbolSet → String
  | .literal s => tuple "Literal" [toString s]
  | .wildcard => "Wildcard"
  | .bracket content negated =>
    record "CharClass" [("ranges", symbolSet content), ("negated", toString negated)]
  | .shorthand kind => tuple "MetaClass" [shorthand kind]
  | .concat terms => tuple "Concat" [list (trees terms)]
  | .alternation branches => tuple "Alternation" [list (trees branches)]
  | .group body capturing name =>
    record "Group" [("body", tree body), ("capturing", toString capturing),
      ("name", optional (name.map Text.quoted))]
  | .repetition body bounds greedy =>
    record "Repeat" [("body", tree body), ("min", toString bounds.least),
      ("max", optional (bounds.most.map toString)), ("greedy", toString greedy)]
  | .look s body negative =>
    record (side s) [("body", tree body), ("negative", toString negative)]
  | .anchor a => tuple "Anchor" [anchor a]

/-- Each tree of a list. -/
def trees : List (Tree SymbolSet) → List String
  | [] => []
  | t :: ts => tree t :: trees ts

end

end Description

/-- A pattern with its mode and its tree on one line. -/
def Pattern.describe {m : Mode} (p : Pattern m) : String :=
  Description.record "Pattern" [("kind", m.name), ("ast", Description.tree p.tree)]

end PatternSampler
