import PatternSampler.Symbol

/-! # Sets of symbols

  A set of symbols is written as a list of inclusive intervals.

  - `Canonical` lists are sorted, without empty intervals, and leave a gap between one
    interval and the next, so that each set has exactly one canonical list.
  - `ofIntervals` accepts intervals in any order, with their ends in any order.
  - `x ∈ s` says that some interval of `s` covers `x`; every operation is meant through it.

  The type does not force the canonical form: a set read from stored bytes or given by hand
  may hold any list, and the operations say what they make of it.
-/

namespace PatternSampler

/-! ## Intervals -/

/-- The symbols from `low` to `high`, both included. -/
structure Interval where
  /-- The first symbol. -/
  low : Symbol
  /-- The last symbol. -/
  high : Symbol
deriving DecidableEq, Repr

namespace Interval

/-- The interval between two symbols given in either order. -/
def between (a b : Symbol) : Interval :=
  if a ≤ b then ⟨a, b⟩ else ⟨b, a⟩

/-- `i.Covers x` when `x` lies between the ends of `i`. -/
def Covers (i : Interval) (x : Symbol) : Prop := i.low ≤ x ∧ x ≤ i.high

instance (i : Interval) (x : Symbol) : Decidable (i.Covers x) :=
  inferInstanceAs (Decidable (_ ∧ _))

/-- Order by first symbol, then by last. -/
def sortsBefore (i j : Interval) : Bool :=
  i.low < j.low || (i.low == j.low && i.high ≤ j.high)

/-- On which side of a symbol the interval lies: before it, after it, or around it. -/
def side (i : Interval) (x : Symbol) : Ordering :=
  if i.high < x then .lt else if x < i.low then .gt else .eq

/-- How many symbols the interval holds. -/
def size (i : Interval) : Nat := i.high.toNat + 1 - i.low.toNat

/-- `i.Precedes j` when `i` ends before `j` begins and at least one symbol lies between
    them, so that the two cannot be written as one interval. -/
def Precedes (i j : Interval) : Prop := i.high.toNat + 1 < j.low.toNat

instance (i j : Interval) : Decidable (i.Precedes j) :=
  inferInstanceAs (Decidable (_ < _))

/-- What is left of `low … high` after taking away the intervals of a list, read from the
    left. An interval that ends before `low` is passed over, and one that starts after
    `high` ends the search, which is right when the list is sorted. -/
def minus (low high : Symbol) : List Interval → List Interval
  | [] => [⟨low, high⟩]
  | other :: rest =>
    if other.high < low then minus low high rest
    else if high < other.low then [⟨low, high⟩]
    else
      -- here `other` meets `low … high`: keep what lies before it, go on after it
      let after := if high ≤ other.high then [] else minus (other.high + 1) high rest
      if low < other.low then ⟨low, other.low - 1⟩ :: after else after

end Interval

/-! ## Sets -/

/-- A set of symbols, as a list of intervals. -/
structure SymbolSet where
  /-- The intervals, whose union is the set. -/
  intervals : List Interval
deriving DecidableEq, Repr

namespace SymbolSet

instance : Membership Symbol SymbolSet where
  mem s x := ∃ i ∈ s.intervals, i.Covers x

instance (x : Symbol) (s : SymbolSet) : Decidable (x ∈ s) :=
  inferInstanceAs (Decidable (∃ i ∈ s.intervals, i.Covers x))

/-- Sorted, non-empty intervals with a gap between each two. -/
def Canonical (s : SymbolSet) : Prop :=
  (∀ i ∈ s.intervals, i.low ≤ i.high) ∧ s.intervals.Pairwise Interval.Precedes

/-- Decides `Canonical` with one look at each interval and its neighbour. -/
def isCanonical (s : SymbolSet) : Bool :=
  go s.intervals
where
  /-- Compares each interval with the next. -/
  go : List Interval → Bool
    | [] => true
    | [i] => i.low ≤ i.high
    | i :: j :: rest => i.low ≤ i.high && decide (i.Precedes j) && go (j :: rest)

/-- Neighbours are enough, because an interval between two others keeps them apart. -/
theorem isCanonical_iff {s : SymbolSet} : s.isCanonical ↔ s.Canonical := by
  obtain ⟨intervals⟩ := s
  simp only [isCanonical, Canonical]
  fun_induction isCanonical.go intervals with
  | case1 => simp
  | case2 i => simp
  | case3 i j rest ih =>
    simp only [Bool.and_eq_true, decide_eq_true_eq, ih]
    constructor
    · rintro ⟨⟨ordered, precedes⟩, all_ordered, apart⟩
      refine ⟨by simpa [ordered] using all_ordered, List.pairwise_cons.2 ⟨?_, apart⟩⟩
      intro k hk
      rcases List.mem_cons.1 hk with rfl | hk
      · exact precedes
      · have j_ordered : j.low.toNat ≤ j.high.toNat := all_ordered j (by simp)
        have j_precedes : j.Precedes k := (List.pairwise_cons.1 apart).1 k hk
        simp only [Interval.Precedes] at *
        omega
    · rintro ⟨all_ordered, apart⟩
      have first := List.pairwise_cons.1 apart
      exact ⟨⟨all_ordered i (by simp), first.1 j (by simp)⟩,
        fun k hk => all_ordered k (List.mem_cons_of_mem i hk), first.2⟩

instance (s : SymbolSet) : Decidable s.Canonical :=
  decidable_of_iff _ isCanonical_iff

/-- The set without symbols. -/
def empty : SymbolSet := ⟨[]⟩

/-- The set of one symbol. -/
def single (x : Symbol) : SymbolSet := ⟨[⟨x, x⟩]⟩

@[simp] theorem not_mem_empty (x : Symbol) : x ∉ empty := by
  rintro ⟨_, h, _⟩
  cases h

@[simp] theorem mem_single {x y : Symbol} : x ∈ single y ↔ x = y := by
  constructor
  · rintro ⟨i, hi, hlo, hhi⟩
    obtain rfl : i = ⟨y, y⟩ := by simpa [single] using hi
    exact UInt32.le_antisymm hhi hlo
  · rintro rfl
    exact ⟨⟨x, x⟩, by simp [single], UInt32.le_refl x, UInt32.le_refl x⟩

theorem canonical_empty : empty.Canonical := by
  simp [Canonical, empty]

theorem canonical_single (x : Symbol) : (single x).Canonical := by
  simp [Canonical, single]

/-! ## The canonical form -/

/-- Joins to `current` every following interval that overlaps it or touches it, and starts
    again at the first that does neither. -/
def absorb (current : Interval) : List Interval → List Interval
  | [] => [current]
  | next :: rest =>
    -- in `Nat`, where the symbol after the last one exists
    if next.low.toNat ≤ current.high.toNat + 1 then
      absorb ⟨current.low, max current.high next.high⟩ rest
    else
      current :: absorb next rest

/-- Joins the intervals of a sorted list that overlap or touch. -/
def coalesce : List Interval → List Interval
  | [] => []
  | first :: rest => absorb first rest

/-- The same intervals sorted and joined. -/
def canonicalize (s : SymbolSet) : SymbolSet :=
  ⟨coalesce (s.intervals.mergeSort Interval.sortsBefore)⟩

/-- The set covered by intervals in any order. Ends that stand the wrong way round are
    swapped. -/
def ofIntervals (intervals : List Interval) : SymbolSet :=
  canonicalize ⟨intervals.map fun i => .between i.low i.high⟩

/-! ## Set algebra -/

/-- The symbols of either set. -/
def union (s t : SymbolSet) : SymbolSet :=
  canonicalize ⟨s.intervals ++ t.intervals⟩

/-- The symbols of `s` that are not in `t`. -/
def difference (s t : SymbolSet) : SymbolSet :=
  ⟨s.intervals.flatMap fun i => Interval.minus i.low i.high t.intervals⟩

/-- The symbols of both sets: what remains of `s` without the part of it outside `t`. -/
def intersection (s t : SymbolSet) : SymbolSet :=
  s.difference (s.difference t)

/-! ## Searching -/

/-- Where the search for a symbol ends, among `size` intervals from the one at `base` on. As
    long as there are two at least, the one in the middle decides which half is left.

    It is made to unfold, so that looking a symbol up in a given set is a computation. -/
@[semireducible] def search (intervals : List Interval) (x : Symbol) (base size : Nat) : Nat :=
  if size ≤ 1 then base
  else
    let half := size / 2
    let after := (intervals[base + half]?).any fun i => i.side x = .gt
    search intervals x (if after then base else base + half) (size - half)
termination_by size

/-- Whether a symbol is in the set, by looking only at the interval where the search ends. On
    a list that is not sorted it may miss the symbol. -/
def contains (s : SymbolSet) (x : Symbol) : Bool :=
  (s.intervals[search s.intervals x 0 s.intervals.length]?).any fun i => i.side x = .eq

/-! ## Counting and indexing -/

/-- The number of symbols, counted interval by interval. -/
def size (s : SymbolSet) : Nat := s.intervals.foldr (fun i others => i.size + others) 0

/-- The symbol with a given number of symbols before it, counted interval by interval. -/
def nth? (s : SymbolSet) (index : Nat) : Option Symbol :=
  go s.intervals index
where
  /-- Passes over whole intervals until the index falls into one. -/
  go : List Interval → Nat → Option Symbol
    | [], _ => none
    | i :: rest, index =>
      if index < i.size then some (i.low + UInt32.ofNat index)
      else go rest (index - i.size)

@[simp] theorem size_empty : empty.size = 0 := rfl

@[simp] theorem nth?_empty (index : Nat) : empty.nth? index = none := rfl

end SymbolSet

end PatternSampler
