import PatternSampler.Tree

/-! # Lookarounds at the ends of a pattern

  A lookbehind that opens a pattern and a lookahead that closes it speak of what stands
  before and after everything else, so their bodies can be written there without disturbing
  another term. A `Plan` finds them before generation starts; every other lookaround is left
  out of the value, which then need not satisfy it.
-/

namespace PatternSampler

/-- The terms of a pattern at the top, and which of them are lookarounds to be written out. -/
structure Plan (β : Type) where
  /-- The terms, in order. -/
  terms : List (Tree β)
  /-- The first term is a positive lookbehind. -/
  lead : Bool
  /-- The last term is a positive lookahead. -/
  trail : Bool

namespace Tree

variable {β : Type}

/-- Whether a tree is a positive lookaround to the given side. -/
def looksTo (side : Side) : Tree β → Bool
  | look s _ false => s = side
  | _ => false

/-- The body of a lookaround, and any other tree as it is. -/
def lookBody : Tree β → Tree β
  | look _ body _ => body
  | t => t

/-- The tree without one group around it that does not capture. -/
def uncovered : Tree β → Tree β
  | group body false _ => body
  | t => t

/-- The terms of a concatenation; any other tree is its only term. -/
def terms : Tree β → List (Tree β)
  | concat terms => terms
  | t => [t]

end Tree

namespace Plan

variable {β : Type}

/-- The plan of a pattern. One group around the pattern that does not capture hides
    nothing. -/
def ofTree (t : Tree β) : Plan β where
  terms := t.uncovered.terms
  lead := t.uncovered.terms.head?.any (Tree.looksTo .behind)
  trail := t.uncovered.terms.getLast?.any (Tree.looksTo .ahead)

/-- What is generated: the terms, with the bodies of the lookarounds that the plan marks in
    their places. -/
def written (p : Plan β) : List (Tree β) :=
  -- the marks were set on the terms as they are, so a lookaround inside a body stays one
  let afterLead := if p.lead then p.terms.modify 0 Tree.lookBody else p.terms
  if p.trail then afterLead.modify (p.terms.length - 1) Tree.lookBody else afterLead

end Plan

end PatternSampler
