import Mathlib.Data.Set.Card
import Mathlib.Order.Hom.Basic
import PatternSampler.Proofs.SymbolSet.Algebra

/-! # Members by index

  The indices below the size of a canonical set are in order with its members:

  - a greater index names a greater symbol (`lt_of_nth?_lt`);
  - so each member has one index, and the two orders are the same (`indexIso`);
  - and the size is the number of members (`ncard_eq_size`).

  The induction is always on the intervals. An index that is passed on to the later intervals
  names a symbol past the first one, because canonical intervals lie one after the other.

  The last section computes sizes and members once more with numbers of 64 and 32 bits, where
  a result that would not fit does not exist. In a canonical set all of them exist, even if the
  set holds all symbols and its size is one more than the greatest 32-bit number.
-/

namespace PatternSampler

namespace SymbolSet

open PatternSampler.Interval

variable {s : SymbolSet} {i : Interval} {is : List Interval} {x y : Symbol} {index other : Nat}

/-! ## The order of the members -/

/-- All members of the later intervals of a canonical list lie past the first one. -/
theorem Canonical.high_lt_of_mem (canonical : Canonical ⟨i :: is⟩) (member : x ∈ mk is) :
    i.high.toNat < x.toNat := by
  obtain ⟨j, j_mem, covers⟩ := member
  have precedes : i.Precedes j := (List.pairwise_cons.1 canonical.2).1 j j_mem
  have low_le : j.low.toNat ≤ x.toNat := covers.1
  rw [Precedes] at precedes
  omega

/-- A greater index names a greater symbol. -/
theorem lt_of_nth?_lt (canonical : s.Canonical) (here : s.nth? index = some x)
    (there : s.nth? other = some y) (lt : index < other) : x < y := by
  show x.toNat < y.toNat
  obtain ⟨is⟩ := s
  -- the induction passes over intervals that both indices leave behind
  induction is generalizing index other with
  | nil =>
    rw [nth?_nil] at here
    contradiction
  | cons i is ih =>
    rw [nth?_cons] at here there
    by_cases below : index < i.size
    · rw [if_pos below] at here
      have x_eq : x.toNat = i.low.toNat + index := by
        rw [← Option.some.inj here]
        exact toNat_low_add below
      by_cases other_below : other < i.size
      · rw [if_pos other_below] at there
        have y_eq : y.toNat = i.low.toNat + other := by
          rw [← Option.some.inj there]
          exact toNat_low_add other_below
        omega
      · -- the first symbol is in the interval, and the second one lies past it
        rw [if_neg other_below] at there
        have past := canonical.high_lt_of_mem (mem_of_nth? there)
        rw [Interval.size] at below
        omega
    · have other_past : ¬ other < i.size := by
        intro other_below
        exact below (Nat.lt_trans lt other_below)
      rw [if_neg below] at here
      rw [if_neg other_past] at there
      have lt_left : index - i.size < other - i.size := by omega
      exact ih lt_left canonical.tail here there

theorem nth?_lt_iff (canonical : s.Canonical) (here : s.nth? index = some x)
    (there : s.nth? other = some y) : index < other ↔ x < y := by
  constructor
  · intro lt
    exact lt_of_nth?_lt canonical here there lt
  · intro lt
    have lt : x.toNat < y.toNat := lt
    rcases Nat.lt_trichotomy index other with before | same | after
    · exact before
    · rw [same, there] at here
      rw [Option.some.inj here] at lt
      exact absurd lt (Nat.lt_irrefl _)
    · have gt : y.toNat < x.toNat := lt_of_nth?_lt canonical there here after
      omega

/-- No two indices name the same symbol. -/
theorem index_eq_of_nth? (canonical : s.Canonical) (here : s.nth? index = some x)
    (there : s.nth? other = some x) : index = other := by
  have not_before := mt (nth?_lt_iff canonical here there).1 (UInt32.lt_irrefl x)
  have not_after := mt (nth?_lt_iff canonical there here).1 (UInt32.lt_irrefl x)
  omega

/-- The members of a set are those with an index, which is then the only one. -/
theorem mem_iff_existsUnique_index (canonical : s.Canonical) :
    x ∈ s ↔ ∃! index, s.nth? index = some x := by
  constructor
  · intro member
    obtain ⟨index, -, found⟩ := exists_nth?_of_mem member
    refine ⟨index, found, ?_⟩
    intro other found_too
    exact index_eq_of_nth? canonical found_too found
  · rintro ⟨index, found, -⟩
    exact mem_of_nth? found

/-! ## The two orders are the same -/

/-- The member at an index below the size. -/
def member (s : SymbolSet) (index : Fin s.size) : {x // x ∈ s} :=
  ⟨(s.nth? index).get (nth?_isSome_iff.2 index.isLt), mem_of_nth? (Option.some_get _).symm⟩

theorem nth?_eq_member (s : SymbolSet) (index : Fin s.size) :
    s.nth? index = some (s.member index).val := (Option.some_get _).symm

theorem bijective_member (canonical : s.Canonical) : Function.Bijective s.member := by
  constructor
  · intro index other same
    have found := s.nth?_eq_member index
    rw [same] at found
    exact Fin.ext (index_eq_of_nth? canonical found (s.nth?_eq_member other))
  · rintro ⟨x, x_mem⟩
    obtain ⟨index, below, found⟩ := exists_nth?_of_mem x_mem
    refine ⟨⟨index, below⟩, Subtype.ext ?_⟩
    have found_too := s.nth?_eq_member ⟨index, below⟩
    rw [found] at found_too
    exact (Option.some.inj found_too).symm

/-- The indices below the size are the members in their order. -/
noncomputable def indexIso (canonical : s.Canonical) : Fin s.size ≃o {x // x ∈ s} where
  toEquiv := Equiv.ofBijective s.member (bijective_member canonical)
  map_rel_iff' := by
    intro index other
    have lt_iff := nth?_lt_iff canonical (s.nth?_eq_member other) (s.nth?_eq_member index)
    show (s.member index).val ≤ (s.member other).val ↔ index ≤ other
    rw [← UInt32.not_lt, ← lt_iff]
    exact Nat.not_lt

/-- The size of a canonical set is the number of its members. -/
theorem ncard_eq_size (canonical : s.Canonical) : {x | x ∈ s}.ncard = s.size := by
  have same_card : Nat.card (Fin s.size) = Nat.card {x // x ∈ s} :=
    Nat.card_congr (indexIso canonical).toEquiv
  rw [Nat.card_eq_fintype_card, Fintype.card_fin] at same_card
  exact same_card.symm

end SymbolSet

/-! ## Sizes and members in words -/

/-- The sum of two 64-bit numbers, if it is one. -/
def add64? (a b : UInt64) : Option UInt64 :=
  if a.toNat + b.toNat < UInt64.size then some (a + b) else none

/-- The difference of two 64-bit numbers, if it is one. -/
def sub64? (a b : UInt64) : Option UInt64 :=
  if b ≤ a then some (a - b) else none

/-- The sum of a symbol and an offset of 64 bits, if both the offset and the sum fit into
    32 bits. -/
def Symbol.add? (x : Symbol) (offset : UInt64) : Option Symbol :=
  if x.toNat + offset.toNat < UInt32.size then some (x + offset.toUInt32) else none

/-- How many symbols an interval holds, computed in words. -/
def Interval.sizeInWords (i : Interval) : Option UInt64 := do
  let steps ← sub64? i.high.toUInt64 i.low.toUInt64
  add64? steps 1

theorem add64?_ofNat {m n : Nat} (fits : m + n < UInt64.size) :
    add64? (UInt64.ofNat m) (UInt64.ofNat n) = some (UInt64.ofNat (m + n)) := by
  have m_eq : (UInt64.ofNat m).toNat = m := by
    rw [UInt64.toNat_ofNat']
    exact Nat.mod_eq_of_lt (Nat.lt_of_le_of_lt (Nat.le_add_right m n) fits)
  have n_eq : (UInt64.ofNat n).toNat = n := by
    rw [UInt64.toNat_ofNat']
    exact Nat.mod_eq_of_lt (Nat.lt_of_le_of_lt (Nat.le_add_left n m) fits)
  unfold add64?
  rw [m_eq, n_eq, if_pos fits, UInt64.ofNat_add]

theorem sub64?_of_le {a b : UInt64} (le : b.toNat ≤ a.toNat) :
    sub64? a b = some (UInt64.ofNat (a.toNat - b.toNat)) := by
  have diff_eq : a - b = UInt64.ofNat (a.toNat - b.toNat) := by
    rw [← UInt64.toNat_sub_of_le a b le, UInt64.ofNat_toNat]
  unfold sub64?
  rw [if_pos (show b ≤ a from le), diff_eq]

theorem Interval.sizeInWords_eq {i : Interval} (ordered : i.low ≤ i.high) :
    i.sizeInWords = some (UInt64.ofNat i.size) := by
  have high_lt := i.high.toNat_lt
  have low_le : i.low.toNat ≤ i.high.toNat := ordered
  have steps : sub64? i.high.toUInt64 i.low.toUInt64 =
      some (UInt64.ofNat (i.high.toNat - i.low.toNat)) := by
    rw [sub64?_of_le]
    · rw [UInt32.toNat_toUInt64, UInt32.toNat_toUInt64]
    · rw [UInt32.toNat_toUInt64, UInt32.toNat_toUInt64]
      exact low_le
  have fits : i.high.toNat - i.low.toNat + 1 < UInt64.size := by
    show _ < 2 ^ 64
    omega
  have size_eq : i.size = i.high.toNat - i.low.toNat + 1 := by
    rw [Interval.size]
    omega
  unfold sizeInWords
  rw [steps, size_eq]
  exact add64?_ofNat fits

namespace SymbolSet

variable {s : SymbolSet} {is : List Interval}

/-- The number of symbols, summed up in words. -/
def sizeInWords (s : SymbolSet) : Option UInt64 :=
  s.intervals.foldlM (fun total i => i.sizeInWords.bind (add64? total)) 0

/-- The symbol at an index, found with computations in words. The outer option tells whether
    all of them have a result. -/
def nthInWords? (s : SymbolSet) (index : UInt64) : Option (Option Symbol) :=
  go s.intervals index
where
  /-- Passes over whole intervals and takes their sizes off the index. -/
  go : List Interval → UInt64 → Option (Option Symbol)
    | [], _ => some none
    | i :: rest, index => do
      let size ← i.sizeInWords
      if index < size then
        let x ← i.low.add? index
        some (some x)
      else
        let left ← sub64? index size
        go rest left

theorem sizeInWords_eq (canonical : s.Canonical) :
    s.sizeInWords = some (UInt64.ofNat s.size) := by
  -- a sum that starts at some total stays below the bound that holds for the whole
  have sum_eq : ∀ (is : List Interval) (total : Nat), Ordered is →
      total + size ⟨is⟩ < UInt64.size →
      is.foldlM (fun total i => i.sizeInWords.bind (add64? total)) (UInt64.ofNat total) =
        some (UInt64.ofNat (total + size ⟨is⟩)) := by
    intro is
    induction is with
    | nil =>
      intro total _ _
      rfl
    | cons i is ih =>
      intro total ordered fits
      rw [size_cons, ← Nat.add_assoc] at fits
      have others : Ordered is := fun j j_mem => ordered j (List.mem_cons_of_mem i j_mem)
      have first := add64?_ofNat (Nat.lt_of_le_of_lt (Nat.le_add_right _ (size ⟨is⟩)) fits)
      rw [List.foldlM_cons, Interval.sizeInWords_eq (ordered i (by simp)), Option.bind_some, first,
        size_cons, ← Nat.add_assoc]
      exact ih (total + i.size) others fits
  have fits : 0 + s.size < UInt64.size := by
    have size_le := canonical.size_le
    show _ < 2 ^ 64
    omega
  have whole := sum_eq s.intervals 0 canonical.ordered fits
  rw [Nat.zero_add] at whole
  exact whole

/-- An index below the size of an interval is an offset that leads to a symbol of it. -/
theorem add?_of_lt {i : Interval} {index : UInt64} (below : index.toNat < i.size) :
    i.low.add? index = some (i.low + UInt32.ofNat index.toNat) := by
  have high_lt := i.high.toNat_lt
  have fits : i.low.toNat + index.toNat < UInt32.size := by
    rw [Interval.size] at below
    show _ < 2 ^ 32
    omega
  have offset_eq : index.toUInt32 = UInt32.ofNat index.toNat := by
    apply UInt32.toNat_inj.1
    rw [UInt64.toNat_toUInt32, UInt32.toNat_ofNat']
  unfold Symbol.add?
  rw [if_pos fits, offset_eq]

theorem nthInWords?_eq (ordered : Ordered s.intervals) (index : UInt64) :
    s.nthInWords? index = some (s.nth? index.toNat) := by
  obtain ⟨is⟩ := s
  show nthInWords?.go is index = _
  induction is generalizing index with
  | nil => rfl
  | cons i is ih =>
    have others : Ordered is := fun j j_mem => ordered j (List.mem_cons_of_mem i j_mem)
    have i_ordered : i.low.toNat ≤ i.high.toNat := ordered i (by simp)
    have size_eq : (UInt64.ofNat i.size).toNat = i.size := by
      have high_lt := i.high.toNat_lt
      rw [UInt64.toNat_ofNat', Interval.size]
      omega
    unfold nthInWords?.go
    rw [Interval.sizeInWords_eq (ordered i (by simp)), nth?_cons]
    simp only [bind, Option.bind_some, UInt64.lt_iff_toNat_lt, size_eq]
    by_cases below : index.toNat < i.size
    · rw [if_pos below, if_pos below, add?_of_lt below, Option.bind_some]
    · have past : (UInt64.ofNat i.size).toNat ≤ index.toNat := by
        rw [size_eq]
        exact Nat.le_of_not_lt below
      have left_eq : (UInt64.ofNat (index.toNat - i.size)).toNat = index.toNat - i.size := by
        have index_lt := index.toNat_lt
        rw [UInt64.toNat_ofNat']
        omega
      have later := ih (UInt64.ofNat (index.toNat - i.size)) others
      rw [left_eq] at later
      rw [if_neg below, if_neg below, sub64?_of_le past, size_eq, Option.bind_some]
      exact later

end SymbolSet

end PatternSampler
