import Mathlib.Data.List.Basic
import Mathlib.Data.UInt
import PatternSampler.SymbolSet.Basic

/-! # The canonical form of a set

  Each set of symbols has one canonical list of intervals:

  - `mem_canonicalize`: bringing a list into canonical form keeps the symbols it covers;
  - `canonical_canonicalize`: the result is canonical, if no interval is empty;
  - `eq_of_mem_iff`: two canonical lists that cover the same symbols are equal.

  Intervals are compared by the numbers of their ends (`Interval.covers_iff`), where the
  symbol after the last one exists and `omega` decides.
-/

namespace PatternSampler

namespace Interval

theorem covers_iff {i : Interval} {x : Symbol} :
    i.Covers x ↔ i.low.toNat ≤ x.toNat ∧ x.toNat ≤ i.high.toNat := Iff.rfl

theorem covers_low {i : Interval} (h : i.low ≤ i.high) : i.Covers i.low :=
  ⟨UInt32.le_refl _, h⟩

theorem covers_high {i : Interval} (h : i.low ≤ i.high) : i.Covers i.high :=
  ⟨h, UInt32.le_refl _⟩

/-- The order of two ends does not matter for what lies between them. -/
theorem covers_between {a b x : Symbol} :
    (between a b).Covers x ↔ (a ≤ x ∧ x ≤ b) ∨ (b ≤ x ∧ x ≤ a) := by
  unfold between
  split
  · rename_i h
    simp only [Covers, UInt32.le_iff_toNat_le] at *
    omega
  · rename_i h
    simp only [Covers, UInt32.le_iff_toNat_le] at *
    omega

theorem between_ordered (a b : Symbol) : (between a b).low ≤ (between a b).high := by
  unfold between
  split
  · assumption
  · rename_i h
    simp only [UInt32.le_iff_toNat_le] at *
    omega

theorem between_of_le {a b : Symbol} (h : a ≤ b) : between a b = ⟨a, b⟩ := if_pos h

/-! ## Sorting -/

/-- What the sorting order means for first symbols. -/
theorem low_le_of_sortsBefore {i j : Interval} (h : i.sortsBefore j) :
    i.low.toNat ≤ j.low.toNat := by
  simp only [sortsBefore, Bool.or_eq_true, decide_eq_true_eq, Bool.and_eq_true, beq_iff_eq,
    UInt32.lt_iff_toNat_lt] at h
  rcases h with h | ⟨h, -⟩
  · omega
  · rw [h]

theorem sortsBefore_trans (i j k : Interval) (hij : i.sortsBefore j) (hjk : j.sortsBefore k) :
    i.sortsBefore k := by
  simp only [sortsBefore, Bool.or_eq_true, decide_eq_true_eq, Bool.and_eq_true, beq_iff_eq,
    UInt32.lt_iff_toNat_lt, UInt32.le_iff_toNat_le, ← UInt32.toNat_inj] at *
  omega

theorem sortsBefore_total (i j : Interval) : i.sortsBefore j || j.sortsBefore i := by
  simp only [sortsBefore, Bool.or_eq_true, decide_eq_true_eq, Bool.and_eq_true, beq_iff_eq,
    UInt32.lt_iff_toNat_lt, UInt32.le_iff_toNat_le, ← UInt32.toNat_inj]
  omega

end Interval

namespace SymbolSet

open PatternSampler.Interval

/-- The intervals stand in the order of their first symbols. -/
def Sorted (intervals : List Interval) : Prop :=
  intervals.Pairwise fun i j => i.low.toNat ≤ j.low.toNat

/-- No interval is empty. -/
def Ordered (intervals : List Interval) : Prop := ∀ i ∈ intervals, i.low ≤ i.high

theorem mem_iff {s : SymbolSet} {x : Symbol} : x ∈ s ↔ ∃ i ∈ s.intervals, i.Covers x := Iff.rfl

theorem mem_mk {intervals : List Interval} {x : Symbol} :
    x ∈ SymbolSet.mk intervals ↔ ∃ i ∈ intervals, i.Covers x := Iff.rfl

theorem Canonical.ordered {s : SymbolSet} (h : s.Canonical) : Ordered s.intervals := h.1

/-- An interval that precedes another starts before it. -/
theorem Canonical.sorted {s : SymbolSet} (h : s.Canonical) : Sorted s.intervals := by
  refine List.Pairwise.imp_of_mem ?_ h.2
  intro i j i_mem _ precedes
  have i_ordered : i.low.toNat ≤ i.high.toNat := h.1 i i_mem
  simp only [Precedes] at precedes
  omega

theorem sorted_mergeSort (intervals : List Interval) :
    Sorted (intervals.mergeSort sortsBefore) := by
  have pairwise := List.pairwise_mergeSort sortsBefore_trans sortsBefore_total intervals
  exact pairwise.imp low_le_of_sortsBefore

/-! ## Joining -/

/-- Joining the first two intervals of a sorted list leaves it sorted. -/
private theorem sorted_join {current next : Interval} {high : Symbol} {rest : List Interval}
    (sorted : Sorted (current :: next :: rest)) : Sorted (⟨current.low, high⟩ :: rest) := by
  obtain ⟨current_le, sorted_rest⟩ := List.pairwise_cons.1 sorted
  refine List.pairwise_cons.2 ⟨?_, (List.pairwise_cons.1 sorted_rest).2⟩
  intro j hj
  exact current_le j (List.mem_cons_of_mem _ hj)

/-- Joining keeps what is covered: the next interval starts within `current` or right after
    it, so that nothing between the two is added. -/
theorem exists_covers_absorb {current : Interval} {rest : List Interval} {x : Symbol}
    (sorted : Sorted (current :: rest)) :
    (∃ i ∈ absorb current rest, i.Covers x) ↔ ∃ i ∈ current :: rest, i.Covers x := by
  induction rest generalizing current with
  | nil => simp [absorb]
  | cons next rest ih =>
    obtain ⟨current_le, sorted_rest⟩ := List.pairwise_cons.1 sorted
    have low_le : current.low.toNat ≤ next.low.toNat := current_le next (by simp)
    unfold absorb
    split
    · rename_i touches
      -- the joined interval covers what the two cover, with nothing between them
      rw [ih (sorted_join sorted)]
      have joined : (Interval.mk current.low (max current.high next.high)).Covers x ↔
          current.Covers x ∨ next.Covers x := by
        simp only [covers_iff, UInt32.toNat_max]
        omega
      simp only [List.exists_mem_cons_iff, joined, or_assoc]
    · rw [List.exists_mem_cons_iff, ih sorted_rest]
      simp only [List.exists_mem_cons_iff]

/-- The intervals that result start no earlier than the one that is joined to. -/
theorem low_le_of_mem_absorb {current i : Interval} {rest : List Interval}
    (sorted : Sorted (current :: rest)) (h : i ∈ absorb current rest) :
    current.low.toNat ≤ i.low.toNat := by
  induction rest generalizing current with
  | nil =>
    simp only [absorb, List.mem_singleton] at h
    rw [h]
  | cons next rest ih =>
    obtain ⟨current_le, sorted_rest⟩ := List.pairwise_cons.1 sorted
    unfold absorb at h
    split at h
    · have joined_le := ih (sorted_join sorted) h
      exact joined_le
    · rcases List.mem_cons.1 h with rfl | h
      · exact Nat.le_refl _
      · have next_le := ih sorted_rest h
        have low_le := current_le next (by simp)
        omega

/-- Joining makes no new ends: what holds of the ends of all intervals holds of the ends of
    the joined ones. -/
theorem ends_of_mem_absorb {P : Symbol → Prop} {current i : Interval} {rest : List Interval}
    (ends : ∀ j ∈ current :: rest, P j.low ∧ P j.high) (h : i ∈ absorb current rest) :
    P i.low ∧ P i.high := by
  induction rest generalizing current with
  | nil => exact ends i (by simpa [absorb] using h)
  | cons next rest ih =>
    have ends_current := ends current (by simp)
    have ends_next := ends next (by simp)
    have ends_rest : ∀ j ∈ next :: rest, P j.low ∧ P j.high :=
      fun j hj => ends j (List.mem_cons_of_mem _ hj)
    unfold absorb at h
    split at h
    · refine ih ?_ h
      intro j hj
      rcases List.mem_cons.1 hj with rfl | hj
      · refine ⟨ends_current.1, ?_⟩
        -- the greater of two high ends is one of them
        show P (if current.high ≤ next.high then next.high else current.high)
        split
        · exact ends_next.2
        · exact ends_current.2
      · exact ends_rest j (List.mem_cons_of_mem _ hj)
    · rcases List.mem_cons.1 h with rfl | h
      · exact ends_current
      · exact ih ends_rest h

theorem canonical_absorb {current : Interval} {rest : List Interval}
    (sorted : Sorted (current :: rest)) (ordered : Ordered (current :: rest)) :
    Canonical ⟨absorb current rest⟩ := by
  induction rest generalizing current with
  | nil => simpa [absorb, Canonical, Ordered] using ordered
  | cons next rest ih =>
    obtain ⟨current_le, sorted_rest⟩ := List.pairwise_cons.1 sorted
    have current_ordered : current.low.toNat ≤ current.high.toNat := ordered current (by simp)
    have ordered_rest : Ordered (next :: rest) := fun i hi => ordered i (List.mem_cons_of_mem _ hi)
    unfold absorb
    split
    · apply ih (sorted_join sorted)
      intro i hi
      rcases List.mem_cons.1 hi with rfl | hi
      · simp only [UInt32.le_iff_toNat_le, UInt32.toNat_max]
        omega
      · exact ordered_rest i (List.mem_cons_of_mem _ hi)
    · rename_i apart
      obtain ⟨ordered_absorb, pairwise_absorb⟩ := ih sorted_rest ordered_rest
      refine ⟨?_, List.pairwise_cons.2 ⟨?_, pairwise_absorb⟩⟩
      · intro i hi
        rcases List.mem_cons.1 hi with rfl | hi
        · exact current_ordered
        · exact ordered_absorb i hi
      · intro i hi
        have next_le := low_le_of_mem_absorb sorted_rest hi
        simp only [Precedes]
        omega

/-! ## The canonical form of any list -/

/-- Bringing a set into canonical form keeps its symbols. -/
@[simp] theorem mem_canonicalize {s : SymbolSet} {x : Symbol} :
    x ∈ s.canonicalize ↔ x ∈ s := by
  have sorted := sorted_mergeSort s.intervals
  have perm := List.mergeSort_perm s.intervals sortsBefore
  have mem_sorted : (∃ i ∈ s.intervals.mergeSort sortsBefore, i.Covers x) ↔ x ∈ s := by
    simp only [perm.mem_iff, mem_iff]
  rw [← mem_sorted]
  unfold canonicalize coalesce
  rw [mem_mk]
  cases h : s.intervals.mergeSort sortsBefore with
  | nil => rfl
  | cons first rest =>
    rw [h] at sorted
    exact exists_covers_absorb sorted

theorem canonical_canonicalize {s : SymbolSet} (ordered : Ordered s.intervals) :
    s.canonicalize.Canonical := by
  have sorted := sorted_mergeSort s.intervals
  have perm := List.mergeSort_perm s.intervals sortsBefore
  have ordered_sorted : Ordered (s.intervals.mergeSort sortsBefore) := fun i hi =>
    ordered i (perm.mem_iff.1 hi)
  unfold canonicalize coalesce
  cases h : s.intervals.mergeSort sortsBefore with
  | nil => exact canonical_empty
  | cons first rest =>
    rw [h] at sorted ordered_sorted
    exact canonical_absorb sorted ordered_sorted

theorem ends_of_mem_canonicalize {P : Symbol → Prop} {s : SymbolSet} {i : Interval}
    (ends : ∀ j ∈ s.intervals, P j.low ∧ P j.high) (h : i ∈ s.canonicalize.intervals) :
    P i.low ∧ P i.high := by
  have perm := List.mergeSort_perm s.intervals sortsBefore
  have ends_sorted : ∀ j ∈ s.intervals.mergeSort sortsBefore, P j.low ∧ P j.high :=
    fun j hj => ends j (perm.mem_iff.1 hj)
  unfold canonicalize coalesce at h
  cases sorted_eq : s.intervals.mergeSort sortsBefore with
  | nil =>
    rw [sorted_eq] at h
    cases h
  | cons first rest =>
    rw [sorted_eq] at h ends_sorted
    exact ends_of_mem_absorb ends_sorted h

theorem canonical_ofIntervals (intervals : List Interval) : (ofIntervals intervals).Canonical := by
  apply canonical_canonicalize
  intro i hi
  obtain ⟨j, -, rfl⟩ := List.mem_map.1 hi
  exact between_ordered j.low j.high

/-- A symbol is in the set of some intervals if one of them covers it, read in either
    direction. -/
theorem mem_ofIntervals {intervals : List Interval} {x : Symbol} :
    x ∈ ofIntervals intervals ↔ ∃ i ∈ intervals, (between i.low i.high).Covers x := by
  simp only [ofIntervals, mem_canonicalize, mem_mk]
  constructor
  · rintro ⟨j, hj, covers⟩
    obtain ⟨i, hi, rfl⟩ := List.mem_map.1 hj
    exact ⟨i, hi, covers⟩
  · rintro ⟨i, hi, covers⟩
    exact ⟨between i.low i.high, List.mem_map.2 ⟨i, hi, rfl⟩, covers⟩

/-! ## One list for each set -/

/-- The first symbols of two canonical lists that cover the same symbols agree, because the
    first symbol is the least one covered. -/
private theorem low_le_of_covered {i j : Interval} {is js : List Interval}
    (canonical_j : Canonical ⟨j :: js⟩) (i_ordered : i.low ≤ i.high)
    (same : ∀ x, (∃ k ∈ i :: is, k.Covers x) → ∃ k ∈ j :: js, k.Covers x) :
    j.low.toNat ≤ i.low.toNat := by
  obtain ⟨k, k_mem, k_covers⟩ := same i.low ⟨i, by simp, covers_low i_ordered⟩
  have k_low : k.low.toNat ≤ i.low.toNat := k_covers.1
  rcases List.mem_cons.1 k_mem with rfl | k_mem
  · exact k_low
  · have j_le := (List.pairwise_cons.1 canonical_j.sorted).1 k k_mem
    omega

/-- The first interval of a canonical list ends no later than that of another one which
    covers the same symbols from the same place on: the symbol after the end is not covered. -/
private theorem high_le_of_covered {i j : Interval} {is js : List Interval}
    (canonical_i : Canonical ⟨i :: is⟩) (low_eq : i.low = j.low)
    (same : ∀ x, (∃ k ∈ j :: js, k.Covers x) → ∃ k ∈ i :: is, k.Covers x) :
    j.high.toNat ≤ i.high.toNat := by
  apply Nat.le_of_not_lt
  intro longer
  -- the symbol after the end of `i` would be covered by `j`, but no interval after `i` has it
  have i_ordered : i.low.toNat ≤ i.high.toNat := canonical_i.1 i (by simp)
  have after_toNat : (i.high + 1).toNat = i.high.toNat + 1 := by
    have := j.high.toNat_lt
    simp only [UInt32.toNat_add, UInt32.toNat_one]
    omega
  have j_covers : j.Covers (i.high + 1) := by
    rw [covers_iff, after_toNat, ← low_eq]
    omega
  obtain ⟨k, k_mem, k_covers⟩ := same (i.high + 1) ⟨j, by simp, j_covers⟩
  rw [covers_iff, after_toNat] at k_covers
  rcases List.mem_cons.1 k_mem with rfl | k_mem
  · omega
  · have precedes : i.Precedes k := (List.pairwise_cons.1 canonical_i.2).1 k k_mem
    simp only [Precedes] at precedes
    omega

theorem Canonical.tail {i : Interval} {is : List Interval} (h : Canonical ⟨i :: is⟩) :
    Canonical ⟨is⟩ :=
  ⟨fun k hk => h.1 k (List.mem_cons_of_mem _ hk), (List.pairwise_cons.1 h.2).2⟩

/-- What the later intervals of a canonical list cover lies after the first one. -/
private theorem covered_tail_iff {i : Interval} {is : List Interval} {x : Symbol}
    (canonical : Canonical ⟨i :: is⟩) :
    (∃ k ∈ is, k.Covers x) ↔ (∃ k ∈ i :: is, k.Covers x) ∧ i.high.toNat < x.toNat := by
  constructor
  · rintro ⟨k, k_mem, k_covers⟩
    have precedes : i.Precedes k := (List.pairwise_cons.1 canonical.2).1 k k_mem
    have low_le : k.low.toNat ≤ x.toNat := k_covers.1
    simp only [Precedes] at precedes
    exact ⟨⟨k, List.mem_cons_of_mem _ k_mem, k_covers⟩, by omega⟩
  · rintro ⟨⟨k, k_mem, k_covers⟩, past⟩
    rcases List.mem_cons.1 k_mem with rfl | k_mem
    · rw [covers_iff] at k_covers
      omega
    · exact ⟨k, k_mem, k_covers⟩

/-- Two canonical lists that cover the same symbols are equal. The induction compares the
    first intervals and passes to the symbols after them. -/
theorem eq_of_mem_iff {s t : SymbolSet} (canonical_s : s.Canonical) (canonical_t : t.Canonical)
    (same : ∀ x, x ∈ s ↔ x ∈ t) : s = t := by
  obtain ⟨is⟩ := s
  obtain ⟨js⟩ := t
  simp only [mem_mk] at same
  congr 1
  induction is generalizing js with
  | nil =>
    cases js with
    | nil => rfl
    | cons j js =>
      obtain ⟨k, k_mem, -⟩ := (same j.low).2 ⟨j, by simp, covers_low (canonical_t.1 j (by simp))⟩
      cases k_mem
  | cons i is ih =>
    have i_ordered := canonical_s.1 i (by simp)
    cases js with
    | nil =>
      obtain ⟨k, k_mem, -⟩ := (same i.low).1 ⟨i, by simp, covers_low i_ordered⟩
      cases k_mem
    | cons j js =>
      have j_ordered := canonical_t.1 j (by simp)
      have low_eq : i.low = j.low := UInt32.toNat_inj.1 (Nat.le_antisymm
        (low_le_of_covered canonical_s j_ordered fun x => (same x).2)
        (low_le_of_covered canonical_t i_ordered fun x => (same x).1))
      have high_eq : i.high = j.high := UInt32.toNat_inj.1 (Nat.le_antisymm
        (high_le_of_covered canonical_t low_eq.symm fun x => (same x).1)
        (high_le_of_covered canonical_s low_eq fun x => (same x).2))
      have head_eq : i = j := by
        cases i
        cases j
        simp only [Interval.mk.injEq]
        exact ⟨low_eq, high_eq⟩
      subst head_eq
      have tail_eq : is = js := by
        apply ih canonical_s.tail js canonical_t.tail
        intro x
        rw [covered_tail_iff canonical_s, covered_tail_iff canonical_t, same x]
      rw [tail_eq]

/-- A canonical set is its own canonical form. -/
theorem canonicalize_eq_self {s : SymbolSet} (h : s.Canonical) : s.canonicalize = s :=
  eq_of_mem_iff (canonical_canonicalize h.ordered) h fun _ => mem_canonicalize

/-- Reading the intervals of a canonical set again gives the set. -/
theorem ofIntervals_eq_self {s : SymbolSet} (h : s.Canonical) : ofIntervals s.intervals = s := by
  have between_eq : s.intervals.map (fun i => Interval.between i.low i.high) = s.intervals := by
    rw [List.map_congr_left (g := id) fun i hi => between_of_le (h.1 i hi), List.map_id]
  unfold ofIntervals
  rw [between_eq]
  exact canonicalize_eq_self h

/-! ## Size -/

theorem size_cons (i : Interval) (is : List Interval) :
    size ⟨i :: is⟩ = i.size + size ⟨is⟩ := rfl

/-- A canonical list above a symbol has no more members than there are symbols left. The
    induction passes to the symbols after the first interval. -/
theorem Canonical.size_add_le {is : List Interval} {least : Nat} (canonical : Canonical ⟨is⟩)
    (above : ∀ i ∈ is, least ≤ i.low.toNat) (in_range : least ≤ 2 ^ 32) :
    size ⟨is⟩ + least ≤ 2 ^ 32 := by
  induction is generalizing least with
  | nil => simpa [size] using in_range
  | cons i is ih =>
    have least_le : least ≤ i.low.toNat := above i (by simp)
    have i_ordered : i.low.toNat ≤ i.high.toNat := canonical.1 i (by simp)
    have high_lt : i.high.toNat < 2 ^ 32 := i.high.toNat_lt
    have after_first : ∀ j ∈ is, i.high.toNat + 1 ≤ j.low.toNat := by
      intro j j_mem
      have precedes : i.Precedes j := (List.pairwise_cons.1 canonical.2).1 j j_mem
      exact Nat.le_of_lt precedes
    have rest_le := ih canonical.tail after_first high_lt
    rw [size_cons, Interval.size]
    omega

theorem Canonical.size_le {s : SymbolSet} (canonical : s.Canonical) : s.size ≤ 2 ^ 32 := by
  have above_zero : ∀ i ∈ s.intervals, 0 ≤ i.low.toNat := fun i _ => Nat.zero_le i.low.toNat
  exact canonical.size_add_le above_zero (Nat.zero_le _)

/-- Each interval that is in order has a member. -/
theorem length_le_size {is : List Interval} (ordered : Ordered is) : is.length ≤ size ⟨is⟩ := by
  induction is with
  | nil => exact Nat.zero_le _
  | cons i is ih =>
    have i_ordered : i.low.toNat ≤ i.high.toNat := ordered i (by simp)
    have others := ih fun j j_mem => ordered j (List.mem_cons_of_mem i j_mem)
    rw [size_cons, List.length_cons, Interval.size]
    omega

theorem Canonical.length_le {s : SymbolSet} (canonical : s.Canonical) :
    s.intervals.length ≤ 2 ^ 32 :=
  Nat.le_trans (length_le_size canonical.ordered) canonical.size_le

end SymbolSet

end PatternSampler
