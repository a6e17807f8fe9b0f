import PatternSampler.Proofs.Generation.Brackets

/-! # Brackets whose contents are not canonical

  The parser gives every bracket a canonical set, but a tree may come from elsewhere, with intervals
  in any order that overlap or touch. Taking such a list away is still safe, and what it does can be
  said exactly. An interval that ends before a symbol has no influence on it, so the first interval
  that does not end before the symbol decides: the symbol is spared if that interval starts after
  it (`mem_difference_iff_spares`).

  - A symbol that no interval covers is always spared. A symbol that one covers is spared only if
    another one stands before it that starts too late, and so never in a sorted list.
  - A difference is canonical for every order, because its parts are cut from one interval from
    left to right.
  - Restricting takes away twice, the second time what is left of the first. That is canonical,
    so that nothing is kept but what the contents cover.

  A bracket and its negation therefore draw from complementary sets of the alphabet's symbols,
  whatever their contents look like.
-/

namespace PatternSampler

/-! ## The interval that decides -/

namespace SymbolSet

/-- The first interval of the list that does not end before `x`, if there is one, starts after
    `x`. -/
def Spares (t : SymbolSet) (x : Symbol) : Prop :=
  ∀ j ∈ t.intervals.find? (fun i => x ≤ i.high), x < j.low

instance (t : SymbolSet) (x : Symbol) : Decidable (t.Spares x) :=
  inferInstanceAs (Decidable (∀ j ∈ t.intervals.find? _, _))

variable {s t : SymbolSet} {x : Symbol} {i : Interval} {rest : List Interval}

theorem spares_nil : Spares ⟨[]⟩ x := fun _ => nofun

/-- An interval before the symbol does not matter. -/
theorem spares_cons_before (h : i.high.toNat < x.toNat) :
    Spares ⟨i :: rest⟩ x ↔ Spares ⟨rest⟩ x := by
  have ends_before : ¬ x ≤ i.high := Nat.not_le.2 h
  simp [Spares, ends_before]

/-- Any other interval decides. -/
theorem spares_cons (h : x.toNat ≤ i.high.toNat) :
    Spares ⟨i :: rest⟩ x ↔ x.toNat < i.low.toNat := by
  have reaches : x ≤ i.high := h
  simp [Spares, reaches, UInt32.lt_iff_toNat_lt]

/-- What is not spared is covered. -/
theorem mem_of_not_spares (h : ¬ t.Spares x) : x ∈ t := by
  simp only [Spares, not_forall] at h
  obtain ⟨j, found, reaches_down⟩ := h
  have reaches_up : x ≤ j.high := by simpa using List.find?_some found
  exact ⟨j, List.mem_of_find?_eq_some found, UInt32.not_lt.1 reaches_down, reaches_up⟩

/-- In a sorted list, what is covered is not spared: the interval that decides starts no later than
    the one that covers. -/
theorem spares_iff_of_sorted (sorted : Sorted t.intervals) : t.Spares x ↔ x ∉ t := by
  refine ⟨?_, fun not_mem => by_contra fun not_spared => not_mem (mem_of_not_spares not_spared)⟩
  obtain ⟨intervals⟩ := t
  intro spares
  rintro ⟨i, i_mem, covers⟩
  rw [Interval.covers_iff] at covers
  induction intervals with
  | nil => cases i_mem
  | cons j rest ih =>
    obtain ⟨j_first, sorted_rest⟩ := List.pairwise_cons.1 sorted
    by_cases before : j.high.toNat < x.toNat
    · rcases List.mem_cons.1 i_mem with rfl | later
      · omega
      · exact ih sorted_rest ((spares_cons_before before).1 spares) later
    · have starts_after := (spares_cons (Nat.le_of_not_lt before)).1 spares
      rcases List.mem_cons.1 i_mem with rfl | later
      · omega
      · have := j_first i later
        omega

end SymbolSet

/-! ## Taking away a list in any order -/

namespace Interval

variable {low high x : Symbol} {others : List Interval}

/-- What is left of `low … high`. The place reached moves on to the end of each interval that meets
    what is left; up to the one that decides about `x`, it stays at `x` or before it. -/
theorem covers_minus_iff (ordered : SymbolSet.Ordered others) :
    (∃ i ∈ minus low high others, i.Covers x) ↔
      (low.toNat ≤ x.toNat ∧ x.toNat ≤ high.toNat) ∧ SymbolSet.Spares ⟨others⟩ x := by
  induction others generalizing low with
  | nil => exact covers_minus_nil.trans (and_iff_left SymbolSet.spares_nil).symm
  | cons other rest ih =>
    have other_ordered : other.low.toNat ≤ other.high.toNat := ordered other (by simp)
    have ordered_rest : SymbolSet.Ordered rest := fun j hj => ordered j (List.mem_cons_of_mem _ hj)
    by_cases before : other.high.toNat < low.toNat
    · -- passed over, as it ends before all that is left
      rw [minus_cons_before before, ih ordered_rest]
      refine and_congr_right fun inside => ?_
      exact (SymbolSet.spares_cons_before (Nat.lt_of_lt_of_le before inside.1)).symm
    · by_cases after : high.toNat < other.low.toNat
      · -- the search ends, and all that is left lies before this interval
        rw [minus_cons_after before after]
        simp only [List.mem_singleton, exists_eq_left, covers_iff]
        refine (and_iff_left_of_imp fun inside => ?_).symm
        rw [SymbolSet.spares_cons (by omega)]
        omega
      · rw [covers_minus_cons_meets before after]
        by_cases ends_before : other.high.toNat < x.toNat
        · -- the interval is taken out, and `x` is in what is left after it
          rw [SymbolSet.spares_cons_before ends_before]
          constructor
          · rintro (first | ⟨ends, later⟩)
            · omega
            · obtain ⟨inside, spares⟩ := (ih ordered_rest).1 later
              rw [Symbol.toNat_succ ends] at inside
              exact ⟨⟨by omega, inside.2⟩, spares⟩
          · rintro ⟨inside, spares⟩
            have ends : other.high.toNat < high.toNat := Nat.lt_of_lt_of_le ends_before inside.2
            refine Or.inr ⟨ends, (ih ordered_rest).2 ⟨?_, spares⟩⟩
            rw [Symbol.toNat_succ ends]
            exact ⟨ends_before, inside.2⟩
        · -- the interval decides: after it nothing is left at `x`
          rw [SymbolSet.spares_cons (Nat.le_of_not_lt ends_before)]
          constructor
          · rintro (first | ⟨ends, later⟩)
            · exact ⟨⟨first.1, by omega⟩, first.2⟩
            · have past := (subset_of_covers_minus later).1
              rw [Symbol.toNat_succ ends] at past
              omega
          · rintro ⟨inside, starts⟩
            exact Or.inl ⟨inside.1, starts⟩

end Interval

namespace SymbolSet

variable {s t : SymbolSet} {x : Symbol}

/-- A difference has the symbols that are spared. -/
theorem mem_difference_iff_spares (ordered : Ordered t.intervals) :
    x ∈ s.difference t ↔ x ∈ s ∧ t.Spares x := by
  have decided (i : Interval) : (∃ j ∈ Interval.minus i.low i.high t.intervals, j.Covers x) ↔
      i.Covers x ∧ t.Spares x := Interval.covers_minus_iff ordered
  rw [mem_iff, difference, mem_flatMap]
  simp only [decided]
  constructor
  · rintro ⟨i, i_mem, covers, spares⟩
    exact ⟨⟨i, i_mem, covers⟩, spares⟩
  · rintro ⟨⟨i, i_mem, covers⟩, spares⟩
    exact ⟨i, i_mem, covers, spares⟩

end SymbolSet

/-! ## Within an alphabet -/

namespace Alphabet

variable {a : Alphabet} {t : SymbolSet} {x : Symbol}

theorem mem_complement_iff_spares (ordered : SymbolSet.Ordered t.intervals) :
    x ∈ a.complement t ↔ x ∈ a.full ∧ t.Spares x :=
  SymbolSet.mem_difference_iff_spares ordered

/-- What is kept is what is not spared. It is taken away from the alphabet's symbols in two steps,
    of which the second takes away a canonical set and is exact. -/
theorem mem_restrict_iff_spares (canonical : a.full.Canonical)
    (ordered : SymbolSet.Ordered t.intervals) :
    x ∈ a.restrict t ↔ x ∈ a.full ∧ ¬ t.Spares x := by
  have outside : (a.full.difference t).Canonical :=
    SymbolSet.canonical_difference canonical ordered
  unfold restrict SymbolSet.intersection
  rw [SymbolSet.mem_difference outside, SymbolSet.mem_difference_iff_spares ordered]
  tauto

/-- What can be chosen for a bracket with any contents: the symbols of the alphabet that the
    contents do not spare, or those that they spare if it is negated. -/
theorem mem_bracketChoices_iff_spares {negated : Bool} (canonical : a.full.Canonical)
    (ordered : SymbolSet.Ordered t.intervals) :
    x ∈ a.bracketChoices t negated ↔ x ∈ a.full ∧ (t.Spares x ↔ negated = true) := by
  unfold bracketChoices
  cases negated with
  | true => simp [mem_complement_iff_spares ordered]
  | false => simp [mem_restrict_iff_spares canonical ordered]

end Alphabet

namespace SymbolSet

/-- Taking away intervals that are not empty, in any order and with any overlap, from a canonical
    set.

    - What is left is canonical, is part of the set, and has all symbols of the set that are in
      no interval.
    - Which of the others it has depends on the order: the first interval that does not end
      before a symbol decides. Where the intervals are sorted, it has none of them.
    - An alphabet with these symbols restricts the intervals to symbols that it has and that some
      interval covers. Only such symbols are ever written for a bracket with these contents, and
      all that its negation can write from a stream of words are the other symbols of the
      alphabet. -/
theorem difference_in_any_order {s t : SymbolSet} (canonical : s.Canonical)
    (ordered : Ordered t.intervals) :
    (s.difference t).Canonical ∧
    (∀ x ∈ s.difference t, x ∈ s) ∧
    (∀ x ∈ s, x ∉ t → x ∈ s.difference t) ∧
    (∀ x, x ∈ s.difference t ↔ x ∈ s ∧ t.Spares x) ∧
    (Sorted t.intervals → ∀ x, x ∈ s.difference t ↔ x ∈ s ∧ x ∉ t) ∧
    ∀ a : Alphabet, a.full = s →
      (a.restrict t).Canonical ∧
      (∀ x ∈ a.restrict t, x ∈ s ∧ x ∈ t) ∧
      (∀ {σ : Type} [WordSource σ] x cap,
        ((Tree.bracket t false).script a cap).MayWrite σ x → x ∈ s ∧ x ∈ t) ∧
      (∀ x cap, ((Tree.bracket t true).script a cap).MayWrite Source x ↔
        x ∈ s ∧ ¬ ((Tree.bracket t false).script a cap).MayWrite Source x) := by
  refine ⟨canonical_difference canonical ordered, fun _ => mem_of_mem_difference,
    fun _ => mem_difference_of_not_mem, fun _ => mem_difference_iff_spares ordered, ?_, ?_⟩
  · intro sorted x
    rw [mem_difference_iff_spares ordered, spares_iff_of_sorted sorted]
  · rintro a rfl
    refine ⟨canonical_intersection canonical ordered, ?_, ?_, ?_⟩
    · intro x kept
      obtain ⟨in_full, not_spared⟩ := (Alphabet.mem_restrict_iff_spares canonical ordered).1 kept
      exact ⟨in_full, mem_of_not_spares not_spared⟩
    · intro σ _ x cap written
      obtain ⟨in_full, decided⟩ := (Alphabet.mem_bracketChoices_iff_spares canonical ordered).1
        (mem_of_mayWrite_bracket written)
      exact ⟨in_full, mem_of_not_spares fun spares => Bool.false_ne_true (decided.1 spares)⟩
    · intro x cap
      rw [mayWrite_bracket_iff canonical ordered, mayWrite_bracket_iff canonical ordered,
        Alphabet.mem_bracketChoices_iff_spares canonical ordered,
        Alphabet.mem_bracketChoices_iff_spares canonical ordered]
      simp only [Bool.false_eq_true, iff_false, iff_true]
      tauto

/-- Three intervals, of which the first is the highest and the other two overlap. It ends the
    search below itself, so that the other two take nothing away there. Sorted, they take away
    all that they cover. -/
theorem difference_in_any_order_highest_first :
    let s : SymbolSet := ⟨[⟨0, 9⟩, ⟨20, 29⟩]⟩
    let t : SymbolSet := ⟨[⟨15, 22⟩, ⟨3, 5⟩, ⟨4, 8⟩]⟩
    let sorted : SymbolSet := ⟨[⟨3, 5⟩, ⟨4, 8⟩, ⟨15, 22⟩]⟩
    let a : Alphabet := ⟨s, CharClass.ascii⟩
    s.Canonical ∧ Ordered t.intervals ∧ Ordered sorted.intervals ∧ Sorted sorted.intervals ∧
      s.difference t = ⟨[⟨0, 9⟩, ⟨23, 29⟩]⟩ ∧ (s.difference t).Canonical ∧
      (4 ∈ t ∧ 4 ∈ s.difference t) ∧ (4 ∈ sorted ∧ 4 ∉ s.difference sorted) ∧
      a.restrict t = ⟨[⟨20, 22⟩]⟩ ∧ (∀ x ∈ a.restrict t, x ∈ s ∧ x ∈ t) ∧
      ¬ ((Tree.bracket t false).script a 10).MayWrite Source 9 ∧
      ((Tree.bracket t true).script a 10).MayWrite Source 9 := by
  intro s t sorted a
  have canonical : s.Canonical := by decide
  have ordered_t : Ordered t.intervals := by simp [Ordered, t]
  have ordered_sorted : Ordered sorted.intervals := by simp [Ordered, sorted]
  have is_sorted : Sorted sorted.intervals := by simp [Sorted, sorted]
  obtain ⟨left, -, -, decided, -, within⟩ := difference_in_any_order canonical ordered_t
  obtain ⟨-, -, -, -, exact_sorted, -⟩ := difference_in_any_order canonical ordered_sorted
  obtain ⟨-, kept, positive, negative⟩ := within a rfl
  have four_spared : 4 ∈ s.difference t := (decided 4).2 ⟨by decide, by decide⟩
  have four_removed : 4 ∉ s.difference sorted := by
    intro kept_four
    exact ((exact_sorted is_sorted 4).1 kept_four).2 (by decide)
  have nine_not_written : ¬ ((Tree.bracket t false).script a 10).MayWrite Source 9 := by
    intro written
    exact absurd (positive 9 10 written).2 (by decide)
  exact ⟨canonical, ordered_t, ordered_sorted, is_sorted, by decide, left,
    ⟨by decide, four_spared⟩, ⟨by decide, four_removed⟩, by decide, kept, nine_not_written,
    (negative 9 10).2 ⟨by decide, nine_not_written⟩⟩

end SymbolSet

end PatternSampler
