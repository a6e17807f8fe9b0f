import Mathlib.Data.Set.Basic
import Mathlib.Logic.Relation
import PatternSampler.Proofs.Stored.Check
import PatternSampler.Proofs.SymbolSet.Construction

/-! # Equal lists and equal sets

  Sets are compared as lists, interval by interval. For canonical sets this is the equality of
  sets, since each set has one canonical list:

  - a list is canonical exactly if reading its intervals again changes nothing
    (`ofIntervals_eq_iff`), which is what the check of stored brackets tests;
  - intervals that are listed in another way make the same list (`ofIntervals_of_eqvGen`);
  - the canonical sets are an algebra of sets, so that its laws are equations between lists
    (`laws_of_canonical`).

  The laws are not proved one by one. A canonical set is given by its members, and union,
  intersection and difference are those of the members, so the algebra of all sets of symbols is
  carried over to the canonical ones.
-/

namespace PatternSampler

/-! ## The algebra of canonical sets -/

/-- A set whose list of intervals is canonical. -/
def CanonicalSet : Type := {s : SymbolSet // s.Canonical}

namespace CanonicalSet

/-- The symbols of a canonical set. -/
def members (s : CanonicalSet) : Set Symbol := {x | x ∈ s.val}

/-- No two canonical sets have the same members. -/
theorem members_injective : Function.Injective members := by
  intro s t same
  apply Subtype.ext
  apply SymbolSet.eq_of_mem_iff s.property t.property
  intro x
  exact Set.ext_iff.1 same x

instance : LE CanonicalSet := ⟨fun s t => s.members ⊆ t.members⟩

instance : LT CanonicalSet := ⟨fun s t => s ≤ t ∧ ¬ t ≤ s⟩

instance : Bot CanonicalSet := ⟨⟨.empty, SymbolSet.canonical_empty⟩⟩

instance : Max CanonicalSet where
  max s t := ⟨s.val.union t.val,
    SymbolSet.canonical_union s.property.ordered t.property.ordered⟩

instance : Min CanonicalSet where
  min s t := ⟨s.val.intersection t.val,
    SymbolSet.canonical_intersection s.property t.property.ordered⟩

instance : SDiff CanonicalSet where
  sdiff s t := ⟨s.val.difference t.val,
    SymbolSet.canonical_difference s.property t.property.ordered⟩

variable (s t : CanonicalSet)

theorem members_bot : members ⊥ = ∅ :=
  Set.ext fun x => iff_of_false (SymbolSet.not_mem_empty x) id

theorem members_sup : (s ⊔ t).members = s.members ∪ t.members :=
  Set.ext fun _ => SymbolSet.mem_union

theorem members_inf : (s ⊓ t).members = s.members ∩ t.members :=
  Set.ext fun _ => SymbolSet.mem_intersection s.property t.property

theorem members_sdiff : (s \ t).members = s.members \ t.members :=
  Set.ext fun _ => SymbolSet.mem_difference t.property

/-- The algebra of all sets of symbols, seen through the members. -/
instance : GeneralizedBooleanAlgebra CanonicalSet :=
  members_injective.generalizedBooleanAlgebra members Iff.rfl Iff.rfl members_sup members_inf
    members_bot members_sdiff

end CanonicalSet

namespace SymbolSet

variable {s t u : SymbolSet}

/-- The laws of set algebra, as equations between the lists of three sets. -/
structure Laws (s t u : SymbolSet) : Prop where
  /-- The order in a union does not matter. -/
  union_comm : s.union t = t.union s
  /-- The order in an intersection does not matter. -/
  intersection_comm : s.intersection t = t.intersection s
  /-- Neither do parentheses in a union. -/
  union_assoc : (s.union t).union u = s.union (t.union u)
  /-- Neither do parentheses in an intersection. -/
  intersection_assoc : (s.intersection t).intersection u = s.intersection (t.intersection u)
  /-- Intersection distributes over union. -/
  intersection_union : s.intersection (t.union u) = (s.intersection t).union (s.intersection u)
  /-- Union distributes over intersection. -/
  union_intersection : s.union (t.intersection u) = (s.union t).intersection (s.union u)
  /-- Taking away a union is taking away both sets. -/
  difference_union : s.difference (t.union u) = (s.difference t).intersection (s.difference u)
  /-- Taking away an intersection leaves what either set leaves. -/
  difference_intersection :
    s.difference (t.intersection u) = (s.difference t).union (s.difference u)
  /-- Difference distributes over a union it is taken from. -/
  union_difference : (s.union t).difference u = (s.difference u).union (t.difference u)
  /-- Difference distributes over an intersection it is taken from. -/
  intersection_difference :
    (s.intersection t).difference u = (s.difference u).intersection (t.difference u)
  /-- Within a set that contains it, a set is the complement of its complement. -/
  double_complement : (∀ x ∈ s, x ∈ t) → t.difference (t.difference s) = s

/-- Canonical sets obey the laws: each is one of the algebra that they form. -/
theorem laws_of_canonical (canonical_s : s.Canonical) (canonical_t : t.Canonical)
    (canonical_u : u.Canonical) : Laws s t u := by
  let a : CanonicalSet := ⟨s, canonical_s⟩
  let b : CanonicalSet := ⟨t, canonical_t⟩
  let c : CanonicalSet := ⟨u, canonical_u⟩
  exact {
    union_comm := congrArg Subtype.val (sup_comm a b)
    intersection_comm := congrArg Subtype.val (inf_comm a b)
    union_assoc := congrArg Subtype.val (sup_assoc a b c)
    intersection_assoc := congrArg Subtype.val (inf_assoc a b c)
    intersection_union := congrArg Subtype.val (inf_sup_left a b c)
    union_intersection := congrArg Subtype.val (sup_inf_left a b c)
    difference_union := congrArg Subtype.val (sdiff_sup : a \ (b ⊔ c) = a \ b ⊓ a \ c)
    difference_intersection := congrArg Subtype.val (sdiff_inf : a \ (b ⊓ c) = a \ b ⊔ a \ c)
    union_difference := congrArg Subtype.val (sup_sdiff : (a ⊔ b) \ c = a \ c ⊔ b \ c)
    intersection_difference := congrArg Subtype.val (inf_sdiff : (a ⊓ b) \ c = a \ c ⊓ b \ c)
    double_complement := by
      intro inside
      have a_le : a ≤ b := inside
      have restored : b \ (b \ a) = a := sdiff_sdiff_eq_self a_le
      exact congrArg Subtype.val restored }

/-! ## Intervals listed in another way -/

/-- One change in how intervals are listed. -/
inductive Relisted : List Interval → List Interval → Prop where
  /-- They stand in another order. -/
  | permuted {is js : List Interval} (perm : is.Perm js) : Relisted is js
  /-- One of them is listed once more. -/
  | repeated {i : Interval} {is : List Interval} (mem : i ∈ is) : Relisted is (i :: is)
  /-- One of them is cut in two. -/
  | split {low middle high : Symbol} {is : List Interval} (low_le : low ≤ middle)
      (lt_high : middle < high) :
      Relisted (⟨low, high⟩ :: is) (⟨low, middle⟩ :: ⟨middle + 1, high⟩ :: is)
  /-- The ends of one of them change places. -/
  | reversed {i : Interval} {is : List Interval} : Relisted (i :: is) (⟨i.high, i.low⟩ :: is)

variable {is js : List Interval}

/-- A change of the list does not change what the intervals cover. -/
theorem covered_iff_of_relisted (relisted : Relisted is js) (x : Symbol) :
    (∃ i ∈ is, (Interval.between i.low i.high).Covers x) ↔
      ∃ i ∈ js, (Interval.between i.low i.high).Covers x := by
  cases relisted with
  | permuted perm => simp only [perm.mem_iff]
  | @repeated i is mem =>
    rw [List.exists_mem_cons_iff]
    exact (or_iff_right_of_imp fun covers => ⟨i, mem, covers⟩).symm
  | @split low middle high is low_le lt_high =>
    -- the second part starts right after the first, so that no symbol is lost between them
    have next_toNat : (middle + 1).toNat = middle.toNat + 1 := Symbol.toNat_succ lt_high
    have low_le : low.toNat ≤ middle.toNat := low_le
    have lt_high : middle.toNat < high.toNat := lt_high
    have whole_covers : (Interval.between low high).Covers x ↔
        (Interval.between low middle).Covers x ∨
          (Interval.between (middle + 1) high).Covers x := by
      simp only [Interval.covers_between, UInt32.le_iff_toNat_le, next_toNat]
      omega
    rw [List.exists_mem_cons_iff, List.exists_mem_cons_iff, List.exists_mem_cons_iff,
      whole_covers, or_assoc]
  | @reversed i is =>
    rw [List.exists_mem_cons_iff, List.exists_mem_cons_iff, Interval.covers_between,
      Interval.covers_between]
    exact or_congr_left or_comm

/-- The list of a set depends only on what the given intervals cover. -/
theorem ofIntervals_congr (same : ∀ x, (∃ i ∈ is, (Interval.between i.low i.high).Covers x) ↔
      ∃ i ∈ js, (Interval.between i.low i.high).Covers x) : ofIntervals is = ofIntervals js := by
  apply eq_of_mem_iff (canonical_ofIntervals is) (canonical_ofIntervals js)
  intro x
  rw [mem_ofIntervals, mem_ofIntervals, same x]

/-- No number of such changes, made or undone, changes the list of the set. -/
theorem ofIntervals_of_eqvGen (relisted : Relation.EqvGen Relisted is js) :
    ofIntervals is = ofIntervals js := by
  induction relisted with
  | rel is js once => exact ofIntervals_congr (covered_iff_of_relisted once)
  | refl is => rfl
  | symm is js _ ih => exact ih.symm
  | trans is js ks _ _ first second => exact first.trans second

/-! ## Canonical lists -/

/-- Reading its intervals again leaves exactly a canonical set as it is. -/
theorem ofIntervals_eq_iff : ofIntervals s.intervals = s ↔ s.Canonical := by
  constructor
  · intro unchanged
    rw [← unchanged]
    exact canonical_ofIntervals s.intervals
  · intro canonical
    exact ofIntervals_eq_self canonical

/-- The check of a stored bracket finds its intervals wrong exactly if they are not canonical.
    That there are none it reports on its own. -/
theorem checkSet_eq_rawBracket_iff :
    Stored.checkSet s = .error .rawBracket ↔ ¬ s.Canonical := by
  unfold Stored.checkSet
  by_cases none : s.intervals.isEmpty = true
  · have canonical : s.Canonical := by
      rw [← ofIntervals_eq_iff, List.isEmpty_iff.1 none]
      cases s
      simp_all [ofIntervals, canonicalize, coalesce]
    simp [none, canonical]
  · by_cases canonical : s.Canonical
    · simp [none, canonical, ofIntervals_eq_iff]
    · simp [none, canonical, ofIntervals_eq_iff]

/-- Two ways to put a set together give the same list exactly if they describe the same
    symbols. -/
theorem Construction.set_eq_iff {c d : Construction} :
    c.set = d.set ↔ ∀ x, c.Describes x ↔ d.Describes x := by
  constructor
  · intro same x
    rw [← c.mem_set_iff, ← d.mem_set_iff, same]
  · intro same
    apply eq_of_mem_iff c.canonical_set d.canonical_set
    intro x
    rw [c.mem_set_iff, d.mem_set_iff]
    exact same x

/-- The equality of lists is that of sets.

    - Two canonical sets with the same members have the same list.
    - A list is canonical exactly if reading its intervals again gives the list itself. So the
      check of a stored bracket takes no list for canonical that is not, and no canonical list
      for one that is not; a list without intervals it refuses for being empty.
    - The list that is read from intervals stays the same if they are put in another order,
      listed more than once, cut in two or turned round, any number of times.
    - Equations between sets are equations between lists: those listed in `Laws`, and whatever
      else is true of the symbols that two constructions describe. -/
theorem lists_eq_as_sets :
    (∀ s t : SymbolSet, s.Canonical → t.Canonical → (∀ x, x ∈ s ↔ x ∈ t) → s = t) ∧
    (∀ s : SymbolSet, (ofIntervals s.intervals = s ↔ s.Canonical) ∧
      (Stored.checkSet s = .error .rawBracket ↔ ¬ s.Canonical) ∧
      (Stored.checkSet s = .ok () ↔ s.intervals ≠ [] ∧ s.Canonical)) ∧
    (∀ is js, Relation.EqvGen Relisted is js → ofIntervals is = ofIntervals js) ∧
    (∀ s t u : SymbolSet, s.Canonical → t.Canonical → u.Canonical → Laws s t u) ∧
    (∀ c d : Construction, c.set = d.set ↔ ∀ x, c.Describes x ↔ d.Describes x) := by
  refine ⟨fun _ _ => eq_of_mem_iff, ?_, ?_, fun _ _ _ => laws_of_canonical, ?_⟩
  · intro s
    exact ⟨ofIntervals_eq_iff, checkSet_eq_rawBracket_iff, Stored.checkSet_eq_ok_iff⟩
  · intro is js relisted
    exact ofIntervals_of_eqvGen relisted
  · intro c d
    exact Construction.set_eq_iff

/-- A set that goes up to the last symbol, its intervals listed with one turned round and with
    one cut in two, of which a part is listed twice. A complement within it is undone by
    another. -/
theorem lists_eq_as_sets_last_symbol :
    let s : SymbolSet := ⟨[⟨0, 9⟩, ⟨0xFFFFFFF0, 0xFFFFFFFF⟩]⟩
    let t : SymbolSet := ⟨[⟨0xFFFFFFFF, 0xFFFFFFFF⟩]⟩
    let is : List Interval := [⟨0xFFFFFFFF, 0xFFFFFFF0⟩, ⟨5, 9⟩, ⟨0, 4⟩, ⟨5, 9⟩]
    s.Canonical ∧ t.Canonical ∧ Relation.EqvGen Relisted s.intervals is ∧
      ofIntervals is = s ∧ s.difference (s.difference t) = t ∧ s.union t = t.union s ∧
      Stored.checkSet s = .ok () ∧ Stored.checkSet ⟨is⟩ = .error .rawBracket := by
  intro s t is
  have canonical_s : s.Canonical := by decide
  have canonical_t : t.Canonical := by decide
  have relisted : Relation.EqvGen Relisted s.intervals is := by
    have cut : Relisted s.intervals [⟨0, 4⟩, ⟨5, 9⟩, ⟨0xFFFFFFF0, 0xFFFFFFFF⟩] :=
      @Relisted.split 0 4 9 _ (by decide) (by decide)
    have listed_twice : Relisted [⟨0, 4⟩, ⟨5, 9⟩, ⟨0xFFFFFFF0, 0xFFFFFFFF⟩]
        [⟨5, 9⟩, ⟨0, 4⟩, ⟨5, 9⟩, ⟨0xFFFFFFF0, 0xFFFFFFFF⟩] := .repeated (by decide)
    have last_first : Relisted [⟨5, 9⟩, ⟨0, 4⟩, ⟨5, 9⟩, ⟨0xFFFFFFF0, 0xFFFFFFFF⟩]
        [⟨0xFFFFFFF0, 0xFFFFFFFF⟩, ⟨5, 9⟩, ⟨0, 4⟩, ⟨5, 9⟩] := .permuted (by decide)
    have turned : Relisted [⟨0xFFFFFFF0, 0xFFFFFFFF⟩, ⟨5, 9⟩, ⟨0, 4⟩, ⟨5, 9⟩] is := .reversed
    exact .trans _ _ _ (.rel _ _ cut) (.trans _ _ _ (.rel _ _ listed_twice)
      (.trans _ _ _ (.rel _ _ last_first) (.rel _ _ turned)))
  obtain ⟨-, lists, relistings, laws, -⟩ := lists_eq_as_sets
  have read_again : ofIntervals s.intervals = s := (lists s).1.2 canonical_s
  have inside : ∀ x ∈ t, x ∈ s := by
    intro x x_mem
    obtain rfl : x = 0xFFFFFFFF := mem_single.1 x_mem
    decide
  have double : s.difference (s.difference t) = t :=
    (laws t s t canonical_t canonical_s canonical_t).double_complement inside
  have raw : ¬ SymbolSet.Canonical ⟨is⟩ := by decide
  refine ⟨canonical_s, canonical_t, relisted, ?_, double, ?_, ?_, ?_⟩
  · rw [← relistings _ _ relisted, read_again]
  · exact (laws s t s canonical_s canonical_t canonical_s).union_comm
  · exact (lists s).2.2.2 ⟨by decide, canonical_s⟩
  · exact (lists ⟨is⟩).2.1.2 raw

end SymbolSet

end PatternSampler
