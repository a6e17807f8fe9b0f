import PatternSampler.Proofs.SymbolSet.Algebra
import PatternSampler.Proofs.SymbolSet.Search

/-! # Sets put together

  All sets are put together from intervals, single symbols and the empty set by the operations
  of set algebra. A `Construction` is one way to do so. Whatever it is, the set is canonical,
  searching it finds exactly its members, and these are the symbols that the construction
  describes (`set_of_construction`).

  The same theorem says that the ends of the intervals are computed within 32 bits. Three
  places compute a new end: the symbol after the end of an interval, when the next one is
  joined to it or when it is taken away, and the symbol before the start of an interval that is
  taken away. Taking away in words (`minusInWords`) has no result where such a neighbour does not
  exist.
-/

namespace PatternSampler

/-! ## Neighbours that may not exist -/

namespace Symbol

/-- The symbol after another one. The last one has none. -/
def succ? (a : Symbol) : Option Symbol :=
  if a.toNat + 1 < UInt32.size then some (a + 1) else none

/-- The symbol before another one. The first one has none. -/
def pred? (a : Symbol) : Option Symbol :=
  if 0 < a.toNat then some (a - 1) else none

/-- The symbol after another one, where the last one comes after itself. -/
def succOrLast (a : Symbol) : Symbol := a.succ?.getD a

variable {a b : Symbol}

theorem succ?_of_lt (h : a.toNat < b.toNat) : a.succ? = some (a + 1) := by
  have b_lt : b.toNat < UInt32.size := b.toNat_lt
  exact if_pos (by omega)

theorem pred?_of_lt (h : a.toNat < b.toNat) : b.pred? = some (b - 1) :=
  if_pos (by omega)

/-- Comparing with the symbol after the last one makes no difference: nothing lies past it. -/
theorem le_succOrLast_iff : b ≤ a.succOrLast ↔ b.toNat ≤ a.toNat + 1 := by
  have b_lt : b.toNat < UInt32.size := b.toNat_lt
  unfold succOrLast succ?
  by_cases fits : a.toNat + 1 < UInt32.size
  · have after_eq : (a + 1).toNat = a.toNat + 1 := by
      rw [UInt32.toNat_add, UInt32.toNat_one]
      exact Nat.mod_eq_of_lt fits
    rw [if_pos fits, Option.getD_some, UInt32.le_iff_toNat_le, after_eq]
  · rw [if_neg fits, Option.getD_none, UInt32.le_iff_toNat_le]
    constructor
    · intro le
      exact Nat.le_succ_of_le le
    · intro _
      omega

end Symbol

namespace Interval

/-- What is left of `low … high` after taking intervals away, if all ends can be computed. -/
def minusInWords (low high : Symbol) : List Interval → Option (List Interval)
  | [] => some [⟨low, high⟩]
  | other :: rest =>
    if other.high < low then minusInWords low high rest
    else if high < other.low then some [⟨low, high⟩]
    else
      let before :=
        if low < other.low then other.low.pred?.map fun last => [Interval.mk low last] else some []
      let after :=
        if high ≤ other.high then some []
        else other.high.succ?.bind fun first => minusInWords first high rest
      before.bind fun kept => after.map fun others => kept ++ others

/-- All ends can be computed: the search goes on only after an interval that ends before
    `high`, and something is kept only before one that starts after `low`. -/
theorem minusInWords_eq (low high : Symbol) (others : List Interval) :
    minusInWords low high others = some (minus low high others) := by
  induction others generalizing low with
  | nil => rfl
  | cons other rest ih =>
    unfold minusInWords
    by_cases before : other.high < low
    · rw [if_pos before, ih, minus_cons_before before]
    · by_cases after : high < other.low
      · rw [if_neg before, if_pos after, minus_cons_after before after]
      · rw [if_neg before, if_neg after, minus_cons_meets before after]
        have first_part : (if low < other.low then
              other.low.pred?.map fun last => [Interval.mk low last] else some []) =
            some
              (if low.toNat < other.low.toNat then [Interval.mk low (other.low - 1)] else []) := by
          by_cases starts : low < other.low
          · rw [if_pos starts, if_pos (show low.toNat < other.low.toNat from starts),
              Symbol.pred?_of_lt starts]
            rfl
          · rw [if_neg starts, if_neg (show ¬ low.toNat < other.low.toNat from starts)]
        have second_part : (if high ≤ other.high then some []
              else other.high.succ?.bind fun first => minusInWords first high rest) =
            some (if high.toNat ≤ other.high.toNat then []
              else minus (other.high + 1) high rest) := by
          by_cases ends : high ≤ other.high
          · rw [if_pos ends, if_pos (show high.toNat ≤ other.high.toNat from ends)]
          · have later : other.high.toNat < high.toNat := Nat.lt_of_not_le ends
            rw [if_neg ends, if_neg (show ¬ high.toNat ≤ other.high.toNat from ends),
              Symbol.succ?_of_lt later]
            exact ih (other.high + 1)
        simp only [first_part, second_part, Option.bind_some, Option.map_some]

end Interval

namespace SymbolSet

open PatternSampler.Interval

/-! ## Operations in words -/

/-- Joins to `current` every following interval that starts at the symbol after it at most. -/
def absorbInWords (current : Interval) : List Interval → List Interval
  | [] => [current]
  | next :: rest =>
    if next.low ≤ current.high.succOrLast then
      absorbInWords ⟨current.low, max current.high next.high⟩ rest
    else
      current :: absorbInWords next rest

theorem absorbInWords_eq (current : Interval) (rest : List Interval) :
    absorbInWords current rest = absorb current rest := by
  induction rest generalizing current with
  | nil => rfl
  | cons next rest ih =>
    unfold absorbInWords absorb
    by_cases touches : next.low.toNat ≤ current.high.toNat + 1
    · rw [if_pos touches, if_pos (Symbol.le_succOrLast_iff.2 touches), ih]
    · rw [if_neg touches, if_neg (mt Symbol.le_succOrLast_iff.1 touches), ih]

/-- The canonical form, with the joining done in words. -/
def canonicalizeInWords (s : SymbolSet) : SymbolSet :=
  match s.intervals.mergeSort sortsBefore with
  | [] => empty
  | first :: rest => ⟨absorbInWords first rest⟩

theorem canonicalizeInWords_eq (s : SymbolSet) : s.canonicalizeInWords = s.canonicalize := by
  unfold canonicalizeInWords canonicalize
  cases s.intervals.mergeSort sortsBefore with
  | nil => rfl
  | cons first rest =>
    show SymbolSet.mk (absorbInWords first rest) = ⟨absorb first rest⟩
    rw [absorbInWords_eq]

/-- The difference, if all ends can be computed. -/
def differenceInWords (s t : SymbolSet) : Option SymbolSet := do
  let parts ← s.intervals.mapM fun i => minusInWords i.low i.high t.intervals
  some ⟨parts.flatten⟩

theorem differenceInWords_eq (s t : SymbolSet) :
    s.differenceInWords t = some (s.difference t) := by
  have parts_eq : (s.intervals.mapM fun i => minusInWords i.low i.high t.intervals) =
      some (s.intervals.map fun i => minus i.low i.high t.intervals) := by
    simp only [minusInWords_eq]
    exact List.mapM_pure
  unfold differenceInWords difference
  rw [parts_eq, List.flatMap_def]
  rfl

/-! ## Constructions -/

/-- A way to put a set together. -/
inductive Construction where
  /-- From intervals in any order, with their ends in any order. -/
  | ofIntervals (intervals : List Interval)
  /-- The empty set. -/
  | empty
  /-- A single symbol. -/
  | single (x : Symbol)
  /-- The symbols of either set. -/
  | union (s t : Construction)
  /-- The symbols of the first set that are not in the second. -/
  | difference (s t : Construction)
  /-- The symbols of both sets. -/
  | intersection (s t : Construction)

namespace Construction

/-- The set that is put together. -/
def set : Construction → SymbolSet
  | ofIntervals intervals => .ofIntervals intervals
  | empty => .empty
  | single x => .single x
  | union s t => s.set.union t.set
  | difference s t => s.set.difference t.set
  | intersection s t => s.set.intersection t.set

/-- The set that is put together, if all ends of intervals can be computed on the way. -/
def setInWords : Construction → Option SymbolSet
  | ofIntervals intervals =>
    some (canonicalizeInWords ⟨intervals.map fun i => .between i.low i.high⟩)
  | empty => some .empty
  | single x => some (.single x)
  | union s t => do
    let first ← s.setInWords
    let second ← t.setInWords
    some (canonicalizeInWords ⟨first.intervals ++ second.intervals⟩)
  | difference s t => do
    let first ← s.setInWords
    let second ← t.setInWords
    first.differenceInWords second
  | intersection s t => do
    let first ← s.setInWords
    let second ← t.setInWords
    let outside ← first.differenceInWords second
    first.differenceInWords outside

/-- The symbols that the construction describes, by the laws of sets. -/
def Describes : Construction → Symbol → Prop
  | ofIntervals intervals, x =>
    ∃ i ∈ intervals, (i.low ≤ x ∧ x ≤ i.high) ∨ (i.high ≤ x ∧ x ≤ i.low)
  | empty, _ => False
  | single y, x => x = y
  | union s t, x => s.Describes x ∨ t.Describes x
  | difference s t, x => s.Describes x ∧ ¬ t.Describes x
  | intersection s t, x => s.Describes x ∧ t.Describes x

variable (c : Construction)

/-- Each operation keeps the canonical form. -/
theorem canonical_set : c.set.Canonical := by
  induction c with
  | ofIntervals intervals => exact canonical_ofIntervals intervals
  | empty => exact canonical_empty
  | single x => exact canonical_single x
  | union s t s_canonical t_canonical =>
    exact canonical_union s_canonical.ordered t_canonical.ordered
  | difference s t s_canonical t_canonical =>
    exact canonical_difference s_canonical t_canonical.ordered
  | intersection s t s_canonical t_canonical =>
    exact canonical_intersection s_canonical t_canonical.ordered

theorem mem_set_iff {x : Symbol} : x ∈ c.set ↔ c.Describes x := by
  induction c with
  | ofIntervals intervals =>
    show x ∈ SymbolSet.ofIntervals intervals ↔ _
    simp only [mem_ofIntervals, covers_between, Describes]
  | empty => exact iff_of_false (not_mem_empty x) id
  | single y => exact mem_single
  | union s t s_mem t_mem => exact mem_union.trans (or_congr s_mem t_mem)
  | difference s t s_mem t_mem =>
    exact (mem_difference t.canonical_set).trans (and_congr s_mem (not_congr t_mem))
  | intersection s t s_mem t_mem =>
    exact (mem_intersection s.canonical_set t.canonical_set).trans (and_congr s_mem t_mem)

/-- No operation computes a symbol that does not exist. -/
theorem setInWords_eq : c.setInWords = some c.set := by
  induction c with
  | ofIntervals intervals => exact congrArg some (canonicalizeInWords_eq _)
  | empty => rfl
  | single x => rfl
  | union s t s_eq t_eq =>
    unfold setInWords
    rw [s_eq, t_eq]
    exact congrArg some (canonicalizeInWords_eq _)
  | difference s t s_eq t_eq =>
    unfold setInWords
    rw [s_eq, t_eq]
    exact differenceInWords_eq s.set t.set
  | intersection s t s_eq t_eq =>
    unfold setInWords
    rw [s_eq, t_eq]
    show (do
      let outside ← s.set.differenceInWords t.set
      s.set.differenceInWords outside) = _
    rw [differenceInWords_eq]
    exact differenceInWords_eq s.set _

/-- Any set that is put together has its intervals in order, none empty and a gap between each
    two. Searching it finds a symbol exactly if an interval covers it, and exactly if the
    construction describes it. On the way every addition and subtraction has its result among
    the 32-bit numbers. -/
theorem set_of_construction :
    c.set.Canonical ∧
    (∀ x, c.set.contains x = true ↔ ∃ i ∈ c.set.intervals, i.Covers x) ∧
    (∀ x, c.set.contains x = true ↔ c.Describes x) ∧
    c.setInWords = some c.set := by
  have canonical := c.canonical_set
  refine ⟨canonical, ?_, ?_, c.setInWords_eq⟩
  · intro x
    exact contains_iff_mem canonical
  · intro x
    rw [contains_iff_mem canonical]
    exact c.mem_set_iff

/-- Intervals at both ends of the 32-bit numbers, one of them written the wrong way round: what
    is taken away leaves one symbol at each end. -/
example : (difference (ofIntervals [⟨0, 9⟩, ⟨0xFFFFFFFF, 8⟩])
    (ofIntervals [⟨1, 0xFFFFFFFE⟩])).set = ⟨[⟨0, 0⟩, ⟨0xFFFFFFFF, 0xFFFFFFFF⟩]⟩ := by cbv

end Construction

end SymbolSet

end PatternSampler
