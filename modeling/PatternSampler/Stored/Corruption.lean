import PatternSampler.Mode
import PatternSampler.Text.Escape
import PatternSampler.Tree

/-! # Trees that may not be loaded

  Stored bytes can be well formed and still hold a tree that no pattern has. A tree is
  checked before it is used: its literals have to belong to the mode, its brackets to hold
  canonical and non-empty sets, its alternations to have two branches at least, and the
  bounds of its repetitions to be consistent. The first part that fails, from left to right
  and from the outside in, is reported.
-/

namespace PatternSampler.Stored

/-- What is wrong with a tree. -/
inductive Corruption where
  /-- A literal is no symbol of the mode. -/
  | foreignLiteral (symbol : Symbol) (mode : Mode)
  /-- A bracket holds nothing. -/
  | emptyBracket
  /-- The intervals of a bracket are not in canonical form. -/
  | rawBracket
  /-- An alternation has less than two branches. -/
  | loneBranch
  /-- The least number of repetitions is greater than the greatest. -/
  | reversedBounds (least most : UInt32)
deriving DecidableEq, Repr

/-- The corruption in words. -/
def Corruption.message : Corruption → String
  | foreignLiteral symbol mode =>
    "literal 0x" ++ Text.hex symbol.toNat ++ " is outside the " ++ mode.name ++ " domain"
  | emptyBracket => "empty character class"
  | rawBracket => "character class ranges are not canonical"
  | loneBranch => "alternation with fewer than two branches"
  | reversedBounds least most =>
    "repeat bounds \x7b" ++ toString least ++ "," ++ toString most ++ "\x7d"

/-- Checks the set of a bracket. -/
def checkSet (s : SymbolSet) : Except Corruption Unit :=
  if s.intervals.isEmpty then .error .emptyBracket
  else if SymbolSet.ofIntervals s.intervals = s then .ok ()
  else .error .rawBracket

/-- Checks the bounds of a repetition. -/
def checkBounds : Bounds → Except Corruption Unit
  | ⟨least, some most⟩ =>
    if most < least then .error (.reversedBounds least most) else .ok ()
  | ⟨_, none⟩ => .ok ()

mutual

/-- Checks a tree. -/
def checkTree [UnicodeClasses] (m : Mode) : Tree SymbolSet → Except Corruption Unit
  | .literal s =>
    if m.alphabet.full.contains s then .ok () else .error (.foreignLiteral s m)
  | .wildcard => .ok ()
  | .bracket content _ => checkSet content
  | .shorthand _ => .ok ()
  | .concat terms => checkTrees m terms
  | .alternation branches =>
    if branches.length < 2 then .error .loneBranch else checkTrees m branches
  | .group body _ _ => checkTree m body
  | .repetition body bounds _ => do
    checkBounds bounds
    checkTree m body
  | .look _ body _ => checkTree m body
  | .anchor _ => .ok ()

/-- Checks trees, one after the other. -/
def checkTrees [UnicodeClasses] (m : Mode) : List (Tree SymbolSet) → Except Corruption Unit
  | [] => .ok ()
  | t :: ts => do
    checkTree m t
    checkTrees m ts

end

end PatternSampler.Stored
