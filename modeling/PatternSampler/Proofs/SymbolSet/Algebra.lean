import PatternSampler.Proofs.SymbolSet.Canonical

/-! # Set algebra on interval lists

  What each operation does to the symbols of a set, and that it keeps the canonical form:

  - `mem_union`, `mem_difference`, `mem_intersection` read the operations as those on sets;
  - `canonical_union`, `canonical_difference`, `canonical_intersection` say that canonical
    sets give canonical sets;
  - `mem_of_nth?` and `nth?_isSome_iff` say that the indices below the size name members.

  Taking away goes through the second list from the left and stops early, so that it is
  exact only if that list is sorted. For any list at all, nothing is added
  (`subset_of_covers_minus`) and what no interval covers is kept (`covers_minus_of_not_covered`).
-/

namespace PatternSampler

/-! ## Neighbours of a symbol -/

namespace Symbol

/-- The symbol after one that is not the last. -/
theorem toNat_succ {a b : Symbol} (h : a.toNat < b.toNat) : (a + 1).toNat = a.toNat + 1 := by
  have := b.toNat_lt
  simp only [UInt32.toNat_add, UInt32.toNat_one]
  omega

/-- The symbol before one that is not the first. -/
theorem toNat_pred {a b : Symbol} (h : a.toNat < b.toNat) : (b - 1).toNat = b.toNat - 1 := by
  have one_le : (1 : Symbol) ≤ b := by
    simp only [UInt32.le_iff_toNat_le, UInt32.toNat_one]
    omega
  simp only [UInt32.toNat_sub_of_le _ _ one_le, UInt32.toNat_one]

end Symbol

/-! ## Taking intervals away from one interval -/

namespace Interval

variable {low high x : Symbol} {other : Interval} {others rest : List Interval}

theorem covers_minus_nil :
    (∃ i ∈ minus low high [], i.Covers x) ↔ low.toNat ≤ x.toNat ∧ x.toNat ≤ high.toNat := by
  simp [minus, covers_iff]

/-- An interval before the place reached takes nothing away. -/
theorem minus_cons_before (h : other.high.toNat < low.toNat) :
    minus low high (other :: rest) = minus low high rest := by
  simp [minus, UInt32.lt_iff_toNat_lt, h]

/-- An interval after the end stops the search. -/
theorem minus_cons_after (not_before : ¬ other.high.toNat < low.toNat)
    (h : high.toNat < other.low.toNat) : minus low high (other :: rest) = [⟨low, high⟩] := by
  simp [minus, UInt32.lt_iff_toNat_lt, not_before, h]

/-- What an interval that meets `low … high` leaves: the part before it, and what the other
    intervals leave of the part after it. -/
theorem minus_cons_meets (not_before : ¬ other.high.toNat < low.toNat)
    (not_after : ¬ high.toNat < other.low.toNat) :
    minus low high (other :: rest) =
      (if low.toNat < other.low.toNat then [⟨low, other.low - 1⟩] else []) ++
      (if high.toNat ≤ other.high.toNat then [] else minus (other.high + 1) high rest) := by
  rw [minus]
  simp only [UInt32.lt_iff_toNat_lt, UInt32.le_iff_toNat_le, not_before, not_after, if_false]
  split <;> rfl

theorem covers_minus_cons_meets (not_before : ¬ other.high.toNat < low.toNat)
    (not_after : ¬ high.toNat < other.low.toNat) :
    (∃ i ∈ minus low high (other :: rest), i.Covers x) ↔
      (low.toNat ≤ x.toNat ∧ x.toNat < other.low.toNat) ∨
      (other.high.toNat < high.toNat ∧
        ∃ i ∈ minus (other.high + 1) high rest, i.Covers x) := by
  have first_part : (∃ i ∈ (if low.toNat < other.low.toNat then [Interval.mk low (other.low - 1)]
      else []), i.Covers x) ↔ low.toNat ≤ x.toNat ∧ x.toNat < other.low.toNat := by
    split
    · rename_i starts
      simp only [List.mem_singleton, exists_eq_left, covers_iff, Symbol.toNat_pred starts]
      omega
    · simp only [List.not_mem_nil, false_and, exists_false, false_iff]
      omega
  have second_part : (∃ i ∈ (if high.toNat ≤ other.high.toNat then []
      else minus (other.high + 1) high rest), i.Covers x) ↔ other.high.toNat < high.toNat ∧
        ∃ i ∈ minus (other.high + 1) high rest, i.Covers x := by
    split
    · rename_i ends
      simp only [List.not_mem_nil, false_and, exists_false, false_iff]
      omega
    · rename_i ends
      simp only [Nat.lt_of_not_le ends, true_and]
  rw [minus_cons_meets not_before not_after, ← first_part, ← second_part]
  simp only [List.mem_append, or_and_right, exists_or]

/-- What is left lies between the ends. -/
theorem subset_of_covers_minus (h : ∃ i ∈ minus low high others, i.Covers x) :
    low.toNat ≤ x.toNat ∧ x.toNat ≤ high.toNat := by
  induction others generalizing low with
  | nil => exact covers_minus_nil.1 h
  | cons other rest ih =>
    by_cases before : other.high.toNat < low.toNat
    · rw [minus_cons_before before] at h
      exact ih h
    · by_cases after : high.toNat < other.low.toNat
      · rw [minus_cons_after before after] at h
        simpa [covers_iff] using h
      · rw [covers_minus_cons_meets before after] at h
        rcases h with h | ⟨ends, h⟩
        · omega
        · have inside := ih h
          rw [Symbol.toNat_succ ends] at inside
          omega

/-- What no interval covers is kept, in whatever order the intervals come. -/
theorem covers_minus_of_not_covered (inside : low.toNat ≤ x.toNat ∧ x.toNat ≤ high.toNat)
    (free : ∀ other ∈ others, ¬ other.Covers x) : ∃ i ∈ minus low high others, i.Covers x := by
  induction others generalizing low with
  | nil => exact covers_minus_nil.2 inside
  | cons other rest ih =>
    have other_free := free other (by simp)
    have rest_free : ∀ j ∈ rest, ¬ j.Covers x := fun j hj => free j (List.mem_cons_of_mem _ hj)
    rw [covers_iff] at other_free
    by_cases before : other.high.toNat < low.toNat
    · rw [minus_cons_before before]
      exact ih inside rest_free
    · by_cases after : high.toNat < other.low.toNat
      · rw [minus_cons_after before after]
        simpa [covers_iff] using inside
      · rw [covers_minus_cons_meets before after]
        -- what is kept lies before the interval or after it
        by_cases starts : x.toNat < other.low.toNat
        · exact Or.inl ⟨inside.1, starts⟩
        · refine Or.inr ⟨by omega, ih ?_ rest_free⟩
          have ends : other.high.toNat < x.toNat := by omega
          rw [Symbol.toNat_succ ends]
          omega

/-- Nothing covered is kept, if the intervals are sorted. -/
theorem not_covered_of_covers_minus (sorted : SymbolSet.Sorted others)
    (h : ∃ i ∈ minus low high others, i.Covers x) : ∀ other ∈ others, ¬ other.Covers x := by
  induction others generalizing low with
  | nil => simp
  | cons other rest ih =>
    obtain ⟨other_le, sorted_rest⟩ := List.pairwise_cons.1 sorted
    have inside := subset_of_covers_minus h
    by_cases before : other.high.toNat < low.toNat
    · rw [minus_cons_before before] at h
      intro j hj
      rcases List.mem_cons.1 hj with rfl | hj
      · rw [covers_iff]
        omega
      · exact ih sorted_rest h j hj
    · by_cases after : high.toNat < other.low.toNat
      -- all intervals from here on start after `high`
      · intro j hj
        have low_le : other.low.toNat ≤ j.low.toNat := by
          rcases List.mem_cons.1 hj with rfl | hj
          · exact Nat.le_refl _
          · exact other_le j hj
        rw [covers_iff]
        omega
      · rw [covers_minus_cons_meets before after] at h
        rcases h with first | ⟨ends, h⟩
        -- what lies before the first interval lies before all of them
        · intro j hj
          have low_le : other.low.toNat ≤ j.low.toNat := by
            rcases List.mem_cons.1 hj with rfl | hj
            · exact Nat.le_refl _
            · exact other_le j hj
          rw [covers_iff]
          omega
        · have past := (subset_of_covers_minus h).1
          rw [Symbol.toNat_succ ends] at past
          intro j hj
          rcases List.mem_cons.1 hj with rfl | hj
          · rw [covers_iff]
            omega
          · exact ih sorted_rest h j hj

/-- An interval that is left, if it is not empty, lies between the ends. -/
theorem bounds_of_mem_minus {i : Interval} (h : i ∈ minus low high others)
    (ordered : i.low ≤ i.high) : low.toNat ≤ i.low.toNat ∧ i.high.toNat ≤ high.toNat :=
  ⟨(subset_of_covers_minus ⟨i, h, covers_low ordered⟩).1,
    (subset_of_covers_minus ⟨i, h, covers_high ordered⟩).2⟩

end Interval

namespace SymbolSet

open PatternSampler.Interval

/-- Canonical lists can be put together if each interval of the first precedes each of the
    second. -/
theorem Canonical.append {is js : List Interval} (canonical_is : Canonical ⟨is⟩)
    (canonical_js : Canonical ⟨js⟩) (precede : ∀ i ∈ is, ∀ j ∈ js, i.Precedes j) :
    Canonical ⟨is ++ js⟩ := by
  refine ⟨?_, List.pairwise_append.2 ⟨canonical_is.2, canonical_js.2, precede⟩⟩
  intro i hi
  rcases List.mem_append.1 hi with hi | hi
  · exact canonical_is.1 i hi
  · exact canonical_js.1 i hi

/-- What is left of an interval is canonical: where an interval was taken out, at least one
    symbol is missing. -/
theorem canonical_minus {low high : Symbol} {others : List Interval}
    (inside : low.toNat ≤ high.toNat) (ordered : Ordered others) :
    Canonical ⟨minus low high others⟩ := by
  have one_interval {a b : Symbol} (h : a.toNat ≤ b.toNat) : Canonical ⟨[⟨a, b⟩]⟩ := by
    simpa [Canonical, UInt32.le_iff_toNat_le] using h
  induction others generalizing low with
  | nil => simpa [minus] using one_interval inside
  | cons other rest ih =>
    have other_ordered : other.low.toNat ≤ other.high.toNat := ordered other (by simp)
    have ordered_rest : Ordered rest := fun j hj => ordered j (List.mem_cons_of_mem _ hj)
    by_cases before : other.high.toNat < low.toNat
    · rw [minus_cons_before before]
      exact ih inside ordered_rest
    · by_cases after : high.toNat < other.low.toNat
      · rw [minus_cons_after before after]
        exact one_interval inside
      · rw [minus_cons_meets before after]
        have first : Canonical ⟨if low.toNat < other.low.toNat then [⟨low, other.low - 1⟩]
            else []⟩ := by
          split
          · rename_i starts
            apply one_interval
            rw [Symbol.toNat_pred starts]
            omega
          · exact canonical_empty
        have second : Canonical ⟨if high.toNat ≤ other.high.toNat then []
            else minus (other.high + 1) high rest⟩ := by
          split
          · exact canonical_empty
          · rename_i ends
            have ends := Nat.lt_of_not_le ends
            apply ih _ ordered_rest
            rw [Symbol.toNat_succ ends]
            omega
        -- the interval that is taken out lies between the two parts
        refine first.append second ?_
        intro i hi j hj
        have j_ordered := second.1 j hj
        split at hi
        · rename_i starts
          obtain rfl := List.mem_singleton.1 hi
          split at hj
          · cases hj
          · rename_i ends
            have ends := Nat.lt_of_not_le ends
            have j_low := (bounds_of_mem_minus hj j_ordered).1
            rw [Symbol.toNat_succ ends] at j_low
            simp only [Precedes, Symbol.toNat_pred starts]
            omega
        · cases hi

/-! ## Difference -/

variable {s t : SymbolSet} {x : Symbol}

theorem mem_flatMap {f : Interval → List Interval} {intervals : List Interval} :
    (∃ i ∈ intervals.flatMap f, i.Covers x) ↔ ∃ i ∈ intervals, ∃ j ∈ f i, j.Covers x := by
  simp only [List.mem_flatMap]
  constructor
  · rintro ⟨j, ⟨i, hi, hj⟩, covers⟩
    exact ⟨i, hi, j, hj, covers⟩
  · rintro ⟨i, hi, j, hj, covers⟩
    exact ⟨j, ⟨i, hi, hj⟩, covers⟩

/-- A difference has no symbol outside the first set. -/
theorem mem_of_mem_difference (h : x ∈ s.difference t) : x ∈ s := by
  obtain ⟨i, hi, covers⟩ := mem_flatMap.1 h
  exact ⟨i, hi, subset_of_covers_minus covers⟩

/-- A difference has every symbol of the first set that is not in the second. -/
theorem mem_difference_of_not_mem (mem_s : x ∈ s) (not_mem_t : x ∉ t) : x ∈ s.difference t := by
  obtain ⟨i, hi, covers⟩ := mem_s
  apply mem_flatMap.2
  refine ⟨i, hi, covers_minus_of_not_covered covers ?_⟩
  intro other other_mem other_covers
  exact not_mem_t ⟨other, other_mem, other_covers⟩

/-- A difference from a sorted list is exact. -/
theorem mem_difference_of_sorted (sorted : Sorted t.intervals) :
    x ∈ s.difference t ↔ x ∈ s ∧ x ∉ t := by
  constructor
  · intro h
    refine ⟨mem_of_mem_difference h, ?_⟩
    rintro ⟨other, other_mem, other_covers⟩
    obtain ⟨i, -, covers⟩ := mem_flatMap.1 h
    exact not_covered_of_covers_minus sorted covers other other_mem other_covers
  · rintro ⟨mem_s, not_mem_t⟩
    exact mem_difference_of_not_mem mem_s not_mem_t

theorem mem_difference (canonical : t.Canonical) : x ∈ s.difference t ↔ x ∈ s ∧ x ∉ t :=
  mem_difference_of_sorted canonical.sorted

/-- Differences from a canonical set are canonical, whatever the order of what is taken
    away. -/
theorem canonical_difference (canonical : s.Canonical) (ordered : Ordered t.intervals) :
    (s.difference t).Canonical := by
  obtain ⟨is⟩ := s
  simp only [difference]
  induction is with
  | nil => exact canonical_empty
  | cons i is ih =>
    have i_ordered := canonical.1 i (by simp)
    have first : Canonical ⟨minus i.low i.high t.intervals⟩ := canonical_minus i_ordered ordered
    have others := ih canonical.tail
    -- parts of two intervals are at least as far apart as the intervals
    rw [List.flatMap_cons]
    refine first.append others ?_
    intro a ha b hb
    obtain ⟨j, hj, hb'⟩ := List.mem_flatMap.1 hb
    have precedes : i.Precedes j := (List.pairwise_cons.1 canonical.2).1 j hj
    have a_high := (bounds_of_mem_minus ha (first.1 a ha)).2
    have b_low := (bounds_of_mem_minus hb' (others.1 b hb)).1
    simp only [Precedes] at *
    omega

/-! ## Intersection and union -/

theorem mem_intersection (canonical_s : s.Canonical) (canonical_t : t.Canonical) :
    x ∈ s.intersection t ↔ x ∈ s ∧ x ∈ t := by
  have inner : (s.difference t).Canonical := canonical_difference canonical_s canonical_t.ordered
  unfold intersection
  rw [mem_difference inner, mem_difference canonical_t]
  tauto

theorem canonical_intersection (canonical : s.Canonical) (ordered : Ordered t.intervals) :
    (s.intersection t).Canonical :=
  canonical_difference canonical (canonical_difference canonical ordered).ordered

@[simp] theorem mem_union : x ∈ s.union t ↔ x ∈ s ∨ x ∈ t := by
  unfold union
  rw [mem_canonicalize]
  simp only [mem_iff, List.mem_append, or_and_right, exists_or]

theorem canonical_union (ordered_s : Ordered s.intervals) (ordered_t : Ordered t.intervals) :
    (s.union t).Canonical := by
  apply canonical_canonicalize
  intro i hi
  rcases List.mem_append.1 hi with hi | hi
  · exact ordered_s i hi
  · exact ordered_t i hi

/-! ## Indexing -/

variable {i : Interval} {is : List Interval} {index : Nat}

theorem nth?_nil : nth? ⟨[]⟩ index = none := rfl

theorem nth?_cons : nth? ⟨i :: is⟩ index =
    if index < i.size then some (i.low + UInt32.ofNat index)
    else nth? ⟨is⟩ (index - i.size) := rfl

/-- Inside an interval the symbols follow each other without a gap. -/
theorem toNat_low_add (below : index < i.size) :
    (i.low + UInt32.ofNat index).toNat = i.low.toNat + index := by
  have high_lt := i.high.toNat_lt
  rw [Interval.size] at below
  have offset : (UInt32.ofNat index).toNat = index := by
    rw [UInt32.toNat_ofNat']
    omega
  rw [UInt32.toNat_add, offset]
  omega

/-- The symbol at an index is a member. An index below the size of an interval shows that the
    interval is not empty, so that nothing has to be asked of the list. -/
theorem mem_of_nth? (h : s.nth? index = some x) : x ∈ s := by
  obtain ⟨is⟩ := s
  induction is generalizing index with
  | nil =>
    rw [nth?_nil] at h
    contradiction
  | cons i is ih =>
    rw [nth?_cons] at h
    by_cases below : index < i.size
    · rw [if_pos below] at h
      refine ⟨i, by simp, ?_⟩
      rw [covers_iff, ← Option.some.inj h, toNat_low_add below]
      rw [Interval.size] at below
      omega
    · rw [if_neg below] at h
      obtain ⟨j, j_mem, covers⟩ := ih h
      exact ⟨j, List.mem_cons_of_mem _ j_mem, covers⟩

/-- Every member is the symbol at some index. -/
theorem exists_nth?_of_mem (h : x ∈ s) : ∃ index < s.size, s.nth? index = some x := by
  obtain ⟨is⟩ := s
  obtain ⟨i, i_mem, covers⟩ := h
  induction is with
  | nil => cases i_mem
  | cons j is ih =>
    rw [size_cons]
    rcases List.mem_cons.1 i_mem with rfl | later
    · obtain ⟨low_le, le_high⟩ := covers_iff.1 covers
      have below : x.toNat - i.low.toNat < i.size := by
        rw [Interval.size]
        omega
      refine ⟨x.toNat - i.low.toNat, Nat.lt_add_right _ below, ?_⟩
      have x_eq : i.low + UInt32.ofNat (x.toNat - i.low.toNat) = x := by
        apply UInt32.toNat_inj.1
        rw [toNat_low_add below]
        omega
      rw [nth?_cons, if_pos below, x_eq]
    · obtain ⟨index, below, found⟩ := ih later
      refine ⟨j.size + index, Nat.add_lt_add_left below j.size, ?_⟩
      have past : ¬ j.size + index < j.size := Nat.not_lt.2 (Nat.le_add_right _ _)
      rw [nth?_cons, if_neg past, Nat.add_sub_cancel_left]
      exact found

/-- Exactly the indices below the size name a symbol. -/
theorem nth?_isSome_iff : (s.nth? index).isSome ↔ index < s.size := by
  obtain ⟨is⟩ := s
  induction is generalizing index with
  | nil => simp [nth?_nil, SymbolSet.size]
  | cons i is ih =>
    rw [nth?_cons, size_cons]
    by_cases below : index < i.size
    · rw [if_pos below]
      exact iff_of_true rfl (Nat.lt_add_right _ below)
    · rw [if_neg below, ih]
      omega

/-- The size counts the members, so that there is one if it is not zero. -/
theorem size_pos_iff : 0 < s.size ↔ ∃ x, x ∈ s := by
  constructor
  · intro pos
    obtain ⟨x, found⟩ := Option.isSome_iff_exists.1 (nth?_isSome_iff.2 pos)
    exact ⟨x, mem_of_nth? found⟩
  · rintro ⟨x, i, i_mem, covers⟩
    obtain ⟨is⟩ := s
    simp only [SymbolSet.size]
    induction is with
    | nil => cases i_mem
    | cons j is ih =>
      rw [List.foldr_cons]
      rcases List.mem_cons.1 i_mem with rfl | later
      · have ends := covers_iff.1 covers
        simp only [Interval.size]
        omega
      · have rest_pos := ih later
        omega

end SymbolSet

end PatternSampler
