import PatternSampler.Alphabet
import PatternSampler.Generation.Plan

/-! # Scripts

  What a tree means for generation is a script: which symbols to write, where to choose and
  between what. Making the script of a tree settles all that depends on the alphabet and on
  the repeat cap, and leaves out all that does not matter for generation:

  - greediness, because it does not change what matches;
  - the names of groups, and whether they capture;
  - lookarounds that the plan does not write out, and anchors, which write nothing.

  Two trees with the same script cannot be told apart by generating from them.
-/

namespace PatternSampler

/-- What to write. -/
inductive Script where
  /-- One given symbol. -/
  | symbol (s : Symbol)
  /-- A symbol of a set, all with the same chance; the context tells in messages what kind of
      place asks for it. -/
  | choice (set : SymbolSet) (context : String)
  /-- All parts, one after the other. -/
  | sequence (parts : List Script)
  /-- One of the branches, all with the same chance; nothing if there are none. -/
  | branches (scripts : List Script)
  /-- A body again and again, any number of times between two bounds, all with the same
      chance. -/
  | repetition (least most : UInt32) (body : Script)

namespace Script

instance : Inhabited Script := ⟨.sequence []⟩

/-- The script that writes nothing. -/
def nothing : Script := .sequence []

/-- The symbols a wildcard can be written as: all but the line feed. -/
def wildcardChoices (a : Alphabet) : SymbolSet := a.complement (.single (.ofChar '\n'))

/-- A place for a wildcard. -/
def wildcard (a : Alphabet) : Script := .choice (wildcardChoices a) "the wildcard"

/-- A place for a bracket: a symbol of its contents that is in the alphabet, or a symbol of
    the alphabet that is not in its contents. -/
def bracket (a : Alphabet) (content : SymbolSet) (negated : Bool) : Script :=
  if negated then .choice (a.complement content) "a negated character class"
  else .choice (a.restrict content) "a character class"

/-- A place for a shorthand. -/
def shorthand (a : Alphabet) (kind : Shorthand) : Script :=
  .choice (a.resolve kind) "a meta class"

end Script

namespace Tree

mutual

/-- The script of a tree over an alphabet, with a cap on unbounded repetitions. -/
def script (a : Alphabet) (cap : UInt32) : Tree SymbolSet → Script
  | literal s => .symbol s
  | wildcard => .wildcard a
  | bracket content negated => .bracket a content negated
  | shorthand kind => .shorthand a kind
  | concat terms => .sequence (scripts a cap terms)
  | alternation branches => .branches (scripts a cap branches)
  | group body _ _ => body.script a cap
  | repetition body bounds _ => .repetition bounds.least (bounds.upper cap) (body.script a cap)
  | look _ _ _ => .nothing
  | anchor _ => .nothing

/-- The script of each tree of a list. -/
def scripts (a : Alphabet) (cap : UInt32) : List (Tree SymbolSet) → List Script
  | [] => []
  | t :: ts => t.script a cap :: scripts a cap ts

end

@[simp] theorem scripts_eq_map (a : Alphabet) (cap : UInt32) (ts : List (Tree SymbolSet)) :
    scripts a cap ts = ts.map (script a cap) := by
  induction ts with
  | nil => simp [scripts]
  | cons t ts ih => simp [scripts, ih]

/-- The script of a whole pattern, with the lookarounds at its ends written out. -/
def wholeScript (a : Alphabet) (cap : UInt32) (t : Tree SymbolSet) : Script :=
  .sequence (scripts a cap (Plan.ofTree t).written)

end Tree

end PatternSampler
