import PatternSampler.Settings.Basic

/-! # Settings from a document

  Settings can be written down in a data format with nulls, booleans, numbers, strings, lists
  and objects, in one of two forms:

  - an object with the parts under their names, in any order and among any other fields;
  - a list with the parts in the order seed, repeat cap, expansion limit, and nothing after
    them.

  In both forms a part that is left out keeps its default, and in a list the last parts are
  those that can be left out. A part that is there has to have the right form, and an object may
  not give a part twice, not even in the same way.
-/

namespace PatternSampler

/-- A value of a data format. Numbers that are not natural (negative, or written with a
    fraction or an exponent) are kept apart without their value, because no field takes one. -/
inductive Document where
  /-- Nothing. -/
  | null
  /-- A truth value. -/
  | bool (value : Bool)
  /-- A natural number. -/
  | natural (value : Nat)
  /-- Any other number. -/
  | otherNumber
  /-- A text. -/
  | text (value : String)
  /-- A list. -/
  | list (items : List Document)
  /-- Fields by name. -/
  | object (fields : List (String × Document))
deriving Inhabited

namespace Document

/-- A natural number below `bound`. -/
def below? (bound : Nat) : Document → Option Nat
  | natural n => if n < bound then some n else none
  | _ => none

/-- A 32-bit number. -/
def word? (d : Document) : Option UInt32 := (d.below? UInt32.size).map UInt32.ofNat

/-- A 64-bit number. -/
def long? (d : Document) : Option UInt64 := (d.below? UInt64.size).map UInt64.ofNat

/-- A seeding. An alternative with a value is an object of one field, named for the
    alternative; one without may also be written as its name alone. -/
def seeding? : Document → Option Seeding
  | text "Random" => some .random
  | object [("Random", null)] => some .random
  | object [("Fixed", seed)] => seed.long?.map .fixed
  | _ => none

/-- What `read` makes of a part, or the default where the part is left out. -/
def partOr {α : Type} (default : α) (read : Document → Option α) : Option Document → Option α
  | some part => read part
  | none => some default

/-- The settings made of the parts that are given. A limit of zero is taken as it stands. -/
def settingsOfParts? (seed repeatCap expansionLimit : Option Document) : Option Settings := do
  let standard : Settings := {}
  let seeding ← partOr standard.seeding seeding? seed
  let repeatCap ← partOr standard.repeatCap word? repeatCap
  let expansionLimit ← partOr standard.expansionLimit long? expansionLimit
  some ⟨seeding, repeatCap, expansionLimit⟩

/-- The names of the parts in an object. -/
def partNames : List String := ["seed", "repeat_cap", "expansion_limit"]

/-- No part is given twice. Nothing is asked of fields with other names. -/
def partsOnce (fields : List (String × Document)) : Bool :=
  partNames.all fun name => (fields.map Prod.fst).count name ≤ 1

/-- The settings that a document writes down. -/
def settings? : Document → Option Settings
  | object fields =>
    if partsOnce fields then
      settingsOfParts? (fields.lookup "seed") (fields.lookup "repeat_cap")
        (fields.lookup "expansion_limit")
    else none
  | list [] => settingsOfParts? none none none
  | list [seed] => settingsOfParts? (some seed) none none
  | list [seed, cap] => settingsOfParts? (some seed) (some cap) none
  | list [seed, cap, limit] => settingsOfParts? (some seed) (some cap) (some limit)
  | _ => none

end Document

end PatternSampler
