import PatternSampler.Mode
import PatternSampler.Proofs.SymbolSet.Algebra

/-! # Alphabets and the two readings of a shorthand

  Over a lawful alphabet (canonical sets, the wide reading containing the narrow one) the
  sets that shorthands are resolved to are canonical and have the members they should:

  - `mem_resolve`: what a shorthand stands for belongs to it under both readings;
  - `mem_resolveExcluded`: what it rules out belongs to it under one of them at least.

  The alphabets of text and of bytes are lawful, whatever the version of Unicode.
-/

namespace PatternSampler

namespace Alphabet

/-- The sets of the alphabet are canonical, and every wide reading contains the narrow one. -/
structure Lawful (a : Alphabet) : Prop where
  /-- The symbols are a canonical set. -/
  full : a.full.Canonical
  /-- The wide readings are canonical sets. -/
  extent : ∀ k, (a.extent k).Canonical
  /-- The wide readings contain the ASCII classes. -/
  ascii_subset : ∀ k x, x ∈ k.ascii → x ∈ a.extent k

/-- The symbols of the alphabet and the widest readings of its classes are canonical sets. The wide
    readings need not contain the narrow ones. -/
structure CanonicalSets (a : Alphabet) : Prop where
  /-- The symbols are a canonical set. -/
  full : a.full.Canonical
  /-- So is the widest reading of each class. -/
  extent : ∀ k, (a.extent k).Canonical

theorem Lawful.canonicalSets {a : Alphabet} (lawful : a.Lawful) : a.CanonicalSets :=
  ⟨lawful.full, lawful.extent⟩

theorem lawful_text [UnicodeClasses] : text.Lawful where
  full := canonical_full_text
  extent := UnicodeClasses.canonical
  ascii_subset k x h :=
    (UnicodeClasses.mem_iff_mem_ascii k x (CharClass.lt_of_mem_ascii h)).2 h

theorem lawful_bytes : bytes.Lawful where
  full := canonical_full_bytes
  extent := CharClass.canonical_ascii
  ascii_subset _ _ h := h

theorem lawful_mode [UnicodeClasses] (m : Mode) : m.alphabet.Lawful := by
  cases m with
  | text => exact lawful_text
  | bytes => exact lawful_bytes

variable {a : Alphabet} {s : SymbolSet} {x : Symbol}

/-! ## Within the alphabet -/

theorem mem_complement (canonical : s.Canonical) :
    x ∈ a.complement s ↔ x ∈ a.full ∧ x ∉ s :=
  SymbolSet.mem_difference canonical

theorem mem_restrict (lawful : a.Lawful) (canonical : s.Canonical) :
    x ∈ a.restrict s ↔ x ∈ a.full ∧ x ∈ s :=
  SymbolSet.mem_intersection lawful.full canonical

namespace CanonicalSets

/-! Each set that is made from canonical ones is canonical. -/

theorem complement (sets : a.CanonicalSets) (canonical : s.Canonical) :
    (a.complement s).Canonical :=
  SymbolSet.canonical_difference sets.full canonical.ordered

theorem restrict (sets : a.CanonicalSets) (canonical : s.Canonical) :
    (a.restrict s).Canonical :=
  SymbolSet.canonical_intersection sets.full canonical.ordered

theorem resolve (sets : a.CanonicalSets) (k : Shorthand) : (a.resolve k).Canonical := by
  unfold Alphabet.resolve
  split
  · exact sets.complement (sets.extent k.charClass)
  · exact sets.restrict (CharClass.canonical_ascii k.charClass)

theorem resolveExcluded (sets : a.CanonicalSets) (k : Shorthand) :
    (a.resolveExcluded k).Canonical := by
  unfold Alphabet.resolveExcluded
  split
  · exact sets.complement (CharClass.canonical_ascii k.charClass)
  · exact sets.restrict (sets.extent k.charClass)

end CanonicalSets

/-! ## Shorthands -/

/-- A symbol belongs to a shorthand when classes are read by `reading`. -/
def Belongs (reading : CharClass → SymbolSet) (k : Shorthand) (x : Symbol) : Prop :=
  if k.negated then x ∉ reading k.charClass else x ∈ reading k.charClass

/-- A shorthand stands for the symbols that belong to it under both readings. -/
theorem mem_resolve (lawful : a.Lawful) {k : Shorthand} :
    x ∈ a.resolve k ↔
      x ∈ a.full ∧ Belongs CharClass.ascii k x ∧ Belongs a.extent k x := by
  have subset := lawful.ascii_subset k.charClass x
  obtain ⟨c, negated⟩ := k
  cases negated with
  | false =>
    -- the narrow reading is the smaller one
    simp only [resolve, Belongs, Bool.false_eq_true, if_false]
    rw [mem_restrict lawful (CharClass.canonical_ascii c)]
    tauto
  | true =>
    -- outside the wide reading is outside both
    simp only [resolve, Belongs, if_true]
    rw [mem_complement (lawful.extent c)]
    tauto

/-- A shorthand rules out the symbols that belong to it under one of the readings. -/
theorem mem_resolveExcluded (lawful : a.Lawful) {k : Shorthand} :
    x ∈ a.resolveExcluded k ↔
      x ∈ a.full ∧ (Belongs CharClass.ascii k x ∨ Belongs a.extent k x) := by
  have subset := lawful.ascii_subset k.charClass x
  obtain ⟨c, negated⟩ := k
  cases negated with
  | false =>
    simp only [resolveExcluded, Belongs, Bool.false_eq_true, if_false]
    rw [mem_restrict lawful (lawful.extent c)]
    tauto
  | true =>
    simp only [resolveExcluded, Belongs, if_true]
    rw [mem_complement (CharClass.canonical_ascii c)]
    tauto

/-- What a shorthand stands for it also rules out. -/
theorem mem_resolveExcluded_of_mem_resolve (lawful : a.Lawful) {k : Shorthand}
    (h : x ∈ a.resolve k) : x ∈ a.resolveExcluded k := by
  obtain ⟨in_full, narrow, -⟩ := (mem_resolve lawful).1 h
  exact (mem_resolveExcluded lawful).2 ⟨in_full, Or.inl narrow⟩

end Alphabet

end PatternSampler
