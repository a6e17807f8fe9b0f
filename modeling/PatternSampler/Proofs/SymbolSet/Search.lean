import PatternSampler.Proofs.SymbolSet.Canonical

/-! # Searching a set

  `contains` looks at a few intervals only. In a canonical set this is enough
  (`contains_iff_mem`): whichever half of the intervals a step of the search drops, none of
  them covers the symbol.
-/

namespace PatternSampler

namespace Interval

variable {i j : Interval} {x : Symbol}

/-- The search stops at an interval exactly if it covers the symbol. -/
theorem side_eq_eq_iff : i.side x = .eq ↔ i.Covers x := by
  unfold side
  by_cases before : i.high < x
  · simp only [if_pos before, reduceCtorEq, Covers, false_iff, not_and]
    intro _ le
    exact absurd before (UInt32.not_lt.2 le)
  · by_cases after : x < i.low
    · simp only [if_neg before, if_pos after, reduceCtorEq, Covers, false_iff, not_and]
      intro le
      exact absurd after (UInt32.not_lt.2 le)
    · simp only [if_neg before, if_neg after, Covers, true_iff]
      exact ⟨UInt32.not_lt.1 after, UInt32.not_lt.1 before⟩

theorem low_gt_of_side_eq_gt (h : i.side x = .gt) : x.toNat < i.low.toNat := by
  unfold side at h
  split at h
  · cases h
  · split at h
    · rename_i after
      exact after
    · cases h

theorem low_le_of_side_ne_gt (ordered : i.low ≤ i.high) (h : i.side x ≠ .gt) :
    i.low.toNat ≤ x.toNat := by
  unfold side at h
  have ordered : i.low.toNat ≤ i.high.toNat := ordered
  split at h
  · rename_i before
    have before : i.high.toNat < x.toNat := before
    omega
  · split at h
    · exact absurd rfl h
    · rename_i after
      exact Nat.le_of_not_lt after

end Interval

namespace SymbolSet

open PatternSampler.Interval

variable {intervals : List Interval} {x : Symbol}

/-- The search keeps the interval that covers the symbol: it is never in the half that is
    dropped. The induction is on the steps of the search. -/
theorem search_eq_of_covers (canonical : Canonical ⟨intervals⟩) {k : Nat}
    (k_lt : k < intervals.length) (covers : intervals[k].Covers x) {base size : Nat}
    (base_le : base ≤ k) (lt_end : k < base + size)
    (in_range : base + size ≤ intervals.length) : search intervals x base size = k := by
  have precedes : ∀ (i j : Nat) (i_lt : i < intervals.length) (j_lt : j < intervals.length),
      i < j → intervals[i].Precedes intervals[j] :=
    List.pairwise_iff_getElem.1 canonical.2
  have ordered : ∀ (i : Nat) (i_lt : i < intervals.length),
      intervals[i].low ≤ intervals[i].high :=
    fun i i_lt => canonical.1 _ (List.getElem_mem i_lt)
  rw [covers_iff] at covers
  fun_induction search intervals x base size with
  | case1 base size small => omega
  | case2 base size large half after ih =>
    have half_eq : half = size / 2 := rfl
    have middle_lt : base + half < intervals.length := by omega
    have middle_eq : intervals[base + half]? = some intervals[base + half] :=
      List.getElem?_eq_getElem middle_lt
    have middle_ordered : intervals[base + half].low.toNat ≤ intervals[base + half].high.toNat :=
      ordered (base + half) middle_lt
    by_cases dropped : after = true
    · -- the middle lies after the symbol, and so does all that follows
      have middle_after : intervals[base + half].side x = .gt := by
        simpa only [after, middle_eq, Option.any_some, decide_eq_true_eq] using dropped
      have x_lt := low_gt_of_side_eq_gt middle_after
      have k_lt_middle : k < base + half := by
        apply Nat.lt_of_not_le
        intro middle_le
        rcases Nat.lt_or_eq_of_le middle_le with later | same
        · have apart := precedes (base + half) k middle_lt k_lt later
          simp only [Precedes] at apart
          omega
        · subst same
          omega
      rw [dif_pos dropped] at ih
      rw [if_pos dropped]
      exact ih base_le (by omega) (by omega)
    · -- the middle does not, so all that stands before it lies before the symbol
      have middle_not_after : intervals[base + half].side x ≠ .gt := by
        simpa only [after, middle_eq, Option.any_some, decide_eq_true_eq] using dropped
      have le_x := low_le_of_side_ne_gt (ordered _ middle_lt) middle_not_after
      have middle_le_k : base + half ≤ k := by
        apply Nat.le_of_not_lt
        intro earlier
        have apart := precedes k (base + half) k_lt middle_lt earlier
        simp only [Precedes] at apart
        omega
      rw [dif_neg dropped] at ih
      rw [if_neg dropped]
      exact ih middle_le_k (by omega) (by omega)

/-- Searching a canonical set finds exactly its members. -/
theorem contains_iff_mem {s : SymbolSet} (canonical : s.Canonical) :
    s.contains x = true ↔ x ∈ s := by
  unfold contains
  constructor
  · intro found
    obtain ⟨i, i_at, i_covers⟩ := (Option.any_eq_true _ _).1 found
    have covers : i.Covers x := side_eq_eq_iff.1 (of_decide_eq_true i_covers)
    exact ⟨i, List.mem_of_getElem? i_at, covers⟩
  · rintro ⟨i, i_mem, covers⟩
    obtain ⟨k, k_lt, rfl⟩ := List.mem_iff_getElem.1 i_mem
    have ends_at_k : search s.intervals x 0 s.intervals.length = k :=
      search_eq_of_covers canonical k_lt covers (Nat.zero_le k) (by omega) (by omega)
    rw [ends_at_k, List.getElem?_eq_getElem k_lt, Option.any_some]
    exact decide_eq_true (side_eq_eq_iff.2 covers)

end SymbolSet

end PatternSampler
