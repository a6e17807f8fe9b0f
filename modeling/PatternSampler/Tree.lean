import PatternSampler.Shorthand
import PatternSampler.SymbolSet.Basic

/-! # Pattern trees

  The meaning of a pattern as a tree. A tree takes the contents of its brackets as a
  parameter `β`, because brackets go through two forms: right after reading they hold the
  items that were written between `[` and `]`, and once an alphabet is chosen they hold the
  set of symbols those items cover. Everything else in a tree is the same for all alphabets,
  and `Tree.map` carries it over unchanged.
-/

namespace PatternSampler

/-- How often a repeated term may occur: `least` times or more, and `most` times at most
    when that is given. -/
structure Bounds where
  /-- The least number of occurrences. -/
  least : UInt32
  /-- The greatest number of occurrences, if there is one. -/
  most : Option UInt32
deriving DecidableEq, Repr

namespace Bounds

/-- The bounds do not exclude every number. -/
def Consistent (b : Bounds) : Prop := ∀ m, b.most = some m → b.least ≤ m

instance (b : Bounds) : Decidable b.Consistent :=
  match h : b.most with
  | none => isTrue (by simp [Consistent, h])
  | some m =>
    if hm : b.least ≤ m then isTrue (by simp [Consistent, h, hm])
    else isFalse (by simp [Consistent, h, hm])

/-- The greatest number of occurrences that generation considers: where none is given, `cap`
    more than the least number, or the greatest 32-bit number if that is less. -/
def upper (b : Bounds) (cap : UInt32) : UInt32 :=
  match b.most with
  | some m => m
  | none => UInt32.ofNat (min (b.least.toNat + cap.toNat) (UInt32.size - 1))

end Bounds

/-- The two ends of a value that an anchor can ask for. -/
inductive Anchor where
  /-- The start of the value, written `^`. -/
  | start
  /-- The end of the value, written `$`. -/
  | finish
deriving DecidableEq, Repr

/-- The side of a place to which a lookaround looks. -/
inductive Side where
  /-- What follows the place. -/
  | ahead
  /-- What precedes the place. -/
  | behind
deriving DecidableEq, Repr

/-- A pattern whose brackets hold contents of type `β`. -/
inductive Tree (β : Type) where
  /-- Exactly one symbol. -/
  | literal (symbol : Symbol)
  /-- Any symbol but the line feed, written `.`. -/
  | wildcard
  /-- A symbol inside the contents of `[…]`, or outside those of `[^…]`. -/
  | bracket (content : β) (negated : Bool)
  /-- A symbol of a shorthand. -/
  | shorthand (kind : Shorthand)
  /-- All terms, one after the other. -/
  | concat (terms : List (Tree β))
  /-- One of the branches. -/
  | alternation (branches : List (Tree β))
  /-- A body in parentheses, which may capture what it matches and may have a name. -/
  | group (body : Tree β) (capturing : Bool) (name : Option String)
  /-- A body repeated within bounds; `greedy` is false after a lazy mark. -/
  | repetition (body : Tree β) (bounds : Bounds) (greedy : Bool)
  /-- A body that has to match on one side of a place, or must not if `negative`. -/
  | look (side : Side) (body : Tree β) (negative : Bool)
  /-- An end of the value. -/
  | anchor (anchor : Anchor)

namespace Tree

variable {β γ : Type}

instance : Inhabited (Tree β) := ⟨.concat []⟩

mutual

/-- The same tree with the contents of every bracket replaced. -/
def map (f : Bool → β → γ) : Tree β → Tree γ
  | literal s => literal s
  | wildcard => wildcard
  | bracket content negated => bracket (f negated content) negated
  | shorthand k => shorthand k
  | concat terms => concat (mapList f terms)
  | alternation branches => alternation (mapList f branches)
  | group body capturing name => group (body.map f) capturing name
  | repetition body bounds greedy => repetition (body.map f) bounds greedy
  | look side body negative => look side (body.map f) negative
  | anchor a => anchor a

/-- `map` on each tree of a list. -/
def mapList (f : Bool → β → γ) : List (Tree β) → List (Tree γ)
  | [] => []
  | t :: ts => t.map f :: mapList f ts

end

@[simp] theorem mapList_eq_map (f : Bool → β → γ) (ts : List (Tree β)) :
    mapList f ts = ts.map (map f) := by
  induction ts with
  | nil => simp [mapList]
  | cons t ts ih => simp [mapList, ih]

/-- The terms of a concatenation; a single term stays as it is. -/
def ofTerms : List (Tree β) → Tree β
  | [term] => term
  | terms => concat terms

/-- The branches of an alternation; a single branch stays as it is. -/
def ofBranches : List (Tree β) → Tree β
  | [branch] => branch
  | branches => alternation branches

/-- A concatenation of literal symbols. -/
def literals (symbols : List Symbol) : Tree β := concat (symbols.map literal)

/-- A greedy repetition. -/
def times (body : Tree β) (least : UInt32) (most : Option UInt32) : Tree β :=
  repetition body ⟨least, most⟩ true

end Tree

end PatternSampler
