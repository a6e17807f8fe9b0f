import PatternSampler.Shorthand
import PatternSampler.Unicode.CharClass

/-! # Alphabets

  The symbols that a pattern is about, and how its shorthands are read over them.

  Matchers disagree on shorthands: some read `\w` as the ASCII class, some as the whole
  Unicode class. An alphabet therefore keeps, beside the ASCII reading, the widest reading
  that a matcher may apply (`extent`). What generation draws has to suit both:

  - a positive shorthand stands for its ASCII class (`resolve`);
  - a negated one leaves out the whole extent;
  - where a shorthand names symbols to *rule out*, inside a negated bracket, the roles are
    exchanged (`resolveExcluded`).

  For text the widest reading is that of Unicode, of one version or another (`UnicodeClasses`). The
  version that is used is the one that there are tables for.
-/

namespace PatternSampler

/-- The ASCII characters of a class. -/
def CharClass.ascii : CharClass → SymbolSet
  | .digit => ⟨[⟨0x30, 0x39⟩]⟩
  | .word => ⟨[⟨0x30, 0x39⟩, ⟨0x41, 0x5A⟩, ⟨0x5F, 0x5F⟩, ⟨0x61, 0x7A⟩]⟩
  | .space => ⟨[⟨0x09, 0x0D⟩, ⟨0x20, 0x20⟩]⟩

namespace CharClass

theorem canonical_ascii (k : CharClass) : k.ascii.Canonical := by
  cases k <;> decide

/-- All characters of an ASCII class are ASCII. -/
theorem lt_of_mem_ascii {k : CharClass} {x : Symbol} (h : x ∈ k.ascii) : x.toNat < 128 := by
  obtain ⟨i, i_mem, covers⟩ := h
  have below : ∀ j ∈ k.ascii.intervals, j.high.toNat < 128 := by
    cases k <;> decide
  exact Nat.lt_of_le_of_lt (UInt32.le_iff_toNat_le.1 covers.2) (below i i_mem)

end CharClass

/-- The classes of characters in the whole of Unicode, as some version of it has them. What is
    proved of text holds for every version, because no more is asked of one than that its classes
    are canonical sets and have the ASCII characters that they should. -/
class UnicodeClasses where
  /-- The characters of a class. -/
  members : CharClass → SymbolSet
  /-- They are a canonical set. -/
  canonical : ∀ k, (members k).Canonical
  /-- Those among them that are ASCII are the ones of the ASCII class. -/
  mem_iff_mem_ascii : ∀ k x, x.toNat < 128 → (x ∈ members k ↔ x ∈ k.ascii)

namespace Unicode

/-- The tables, by the class they are for. -/
def table : CharClass → SymbolSet
  | .digit => digit
  | .word => word
  | .space => space

/-- The version that the tables are of. -/
instance : UnicodeClasses where
  members := table
  canonical k := by cases k <;> decide +kernel
  mem_iff_mem_ascii k x ascii := by
    -- each table is that of the ASCII class, with intervals past ASCII after it
    have narrow_in_wide : ∀ i ∈ k.ascii.intervals, i ∈ (table k).intervals := by
      cases k <;> decide +kernel
    have narrow_or_past : ∀ i ∈ (table k).intervals, i ∈ k.ascii.intervals ∨ 128 ≤ i.low.toNat := by
      cases k <;> decide +kernel
    constructor
    · rintro ⟨i, i_mem, covers⟩
      have low_le := UInt32.le_iff_toNat_le.1 covers.1
      rcases narrow_or_past i i_mem with narrow | past
      · exact ⟨i, narrow, covers⟩
      · omega
    · rintro ⟨i, i_mem, covers⟩
      exact ⟨i, narrow_in_wide i i_mem, covers⟩

end Unicode

/-- The characters of a class in the whole of Unicode. -/
def CharClass.unicode [UnicodeClasses] : CharClass → SymbolSet := UnicodeClasses.members

/-- The symbols of a domain and the widest reading of each class of characters in it. -/
structure Alphabet where
  /-- Every symbol of the domain. -/
  full : SymbolSet
  /-- The widest set that a matcher over the domain may take a class for. -/
  extent : CharClass → SymbolSet := CharClass.ascii

namespace Alphabet

/-- The characters of text: every code point but the surrogates. -/
def text [UnicodeClasses] : Alphabet where
  full := ⟨[⟨0, 0xD7FF⟩, ⟨0xE000, 0x10FFFF⟩]⟩
  extent := CharClass.unicode

/-- The 256 bytes, with classes read as ASCII. -/
def bytes : Alphabet where
  full := ⟨[⟨0, 0xFF⟩]⟩

theorem canonical_full_text [UnicodeClasses] : text.full.Canonical := by
  show SymbolSet.Canonical ⟨[⟨0, 0xD7FF⟩, ⟨0xE000, 0x10FFFF⟩]⟩
  decide

theorem canonical_full_bytes : bytes.full.Canonical := by
  decide

/-- An alphabet of the symbols that some intervals cover, with classes read as ASCII. -/
def ofIntervals (intervals : List Interval) : Alphabet where
  full := .ofIntervals intervals

/-- The symbols of the alphabet that are not in `s`. -/
def complement (a : Alphabet) (s : SymbolSet) : SymbolSet := a.full.difference s

/-- The symbols of `s` that are in the alphabet. -/
def restrict (a : Alphabet) (s : SymbolSet) : SymbolSet := a.full.intersection s

/-- The extent of a shorthand's class. A negated shorthand has no extent of its own, and is
    answered with that of white space. -/
def shorthandExtent (a : Alphabet) (k : Shorthand) : SymbolSet :=
  a.extent (if k.negated then .space else k.charClass)

/-- The symbols a shorthand stands for: those in its class, or outside it, under the ASCII
    reading as well as the widest one. -/
def resolve (a : Alphabet) (k : Shorthand) : SymbolSet :=
  if k.negated then a.complement (a.extent k.charClass) else a.restrict k.charClass.ascii

/-- The symbols a shorthand rules out inside a negated bracket: those in its class, or
    outside it, under one of the two readings at least. -/
def resolveExcluded (a : Alphabet) (k : Shorthand) : SymbolSet :=
  if k.negated then a.complement k.charClass.ascii else a.restrict (a.extent k.charClass)

end Alphabet

end PatternSampler
