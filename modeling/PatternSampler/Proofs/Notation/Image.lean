import PatternSampler.Proofs.Mode
import PatternSampler.Proofs.Notation.Nesting

/-! # What can be read

  Every tree that is read from a pattern of text or of bytes is normal, and its lists are
  hardly longer than the pattern (`everywhere_of_parse`).

  The proof is an invariant of the reader's state: what has been read of each level that is
  under way is normal, and the terms and branches of a level together with the symbols still
  to come are not more than the pattern has symbols. Each step keeps it, and where reading
  ends it says that the draft is normal. Filling in the symbols that brackets cover keeps
  drafts normal, because every shorthand covers something in both modes.
-/

namespace PatternSampler.Notation

variable {symbols : List Symbol}

/-! ## Terms -/

/-- A node that can be read from the given symbols. -/
def ReadNode (symbols : List Symbol) (d : Draft) : Prop :=
  NormalDraftNode symbols d ∧ d.ShortNode (symbols.length + 1)

/-- A term that can be read from the given symbols. -/
structure ReadTerm (symbols : List Symbol) (d : Draft) : Prop where
  /-- It can stand in a row of terms. -/
  is_term : d.IsTerm
  /-- All its nodes can be read. -/
  everywhere : d.Everywhere (ReadNode symbols)

theorem readTerm_of_leaf {t : Draft} (leaf : t.IsLeaf) (normal : NormalDraftNode symbols t) :
    ReadTerm symbols t := by
  have short : t.ShortNode (symbols.length + 1) := by
    cases t with
    | concat _ | alternation _ | group _ _ _ => cases leaf
    | _ => trivial
  exact ⟨leaf.isTerm, leaf.everywhere ⟨normal, short⟩⟩

theorem readTerm_of_wrap {o : Opening} {body : Draft} (within : o.Within symbols)
    (body_read : body.Everywhere (ReadNode symbols)) : ReadTerm symbols (o.wrap body) := by
  cases o with
  | group capturing name =>
    have short : ∀ n, name = some n → n.length ≤ symbols.length + 1 := by
      intro n name_eq
      rw [name_eq] at within
      exact Nat.le_succ_of_le within.short
    refine ⟨trivial, ?_⟩
    simp only [Opening.wrap, Tree.Everywhere]
    exact ⟨⟨within.valid, short⟩, body_read⟩
  | look side negative =>
    refine ⟨trivial, ?_⟩
    simp only [Opening.wrap, Tree.Everywhere]
    exact ⟨⟨trivial, trivial⟩, body_read⟩

/-- A quantifier makes a term of a term that it can stand after: of a leaf that is no anchor,
    or of a group or lookaround. -/
theorem readTerm_of_quantify {t term : Draft} {c d : Cursor} (read : ReadTerm symbols t)
    (single : ∀ body bounds greedy, t ≠ .repetition body bounds greedy)
    (quantified : quantify t c = .ok (term, d)) : ReadTerm symbols term := by
  obtain ⟨-, rfl | ⟨can_repeat, bounds, greedy, consistent, rfl⟩⟩ := of_quantify quantified
  · exact read
  · have quantifiable : t.IsQuantifiable := by
      cases t with
      | concat _ | alternation _ => exact read.is_term.elim
      | repetition body bounds greedy => exact single body bounds greedy rfl
      | anchor _ => cases can_repeat
      | _ => trivial
    refine ⟨trivial, ?_⟩
    simp only [Tree.Everywhere]
    exact ⟨⟨⟨quantifiable, consistent⟩, trivial⟩, read.everywhere⟩

/-! ## Levels -/

/-- What has been read of a level is made of the given symbols, of which `left` are still to
    come. -/
structure Level.Normal (symbols : List Symbol) (left : Nat) (level : Level) : Prop where
  /-- The terms after the last bar are terms. -/
  terms : ∀ t ∈ level.terms, ReadTerm symbols t
  /-- The branches before it are branches. -/
  branches : ∀ t ∈ level.branches, t.IsBranch ∧ t.Everywhere (ReadNode symbols)
  /-- Each term and each bar took a symbol. -/
  short : level.terms.length + level.branches.length + left ≤ symbols.length

namespace Level

variable {level : Level} {left fewer : Nat}

theorem Normal.mono (h : level.Normal symbols left) (le : fewer ≤ left) :
    level.Normal symbols fewer := by
  refine ⟨h.terms, h.branches, ?_⟩
  have short := h.short
  omega

theorem normal_empty (le : left ≤ symbols.length) : empty.Normal symbols left := by
  refine ⟨fun _ => nofun, fun _ => nofun, ?_⟩
  simpa [empty] using le

theorem Normal.add {term : Draft} (h : level.Normal symbols left) (read : ReadTerm symbols term)
    (lt : fewer < left) : (level.add term).Normal symbols fewer := by
  refine ⟨?_, h.branches, ?_⟩
  · intro t t_mem
    rcases List.mem_cons.1 t_mem with rfl | t_mem
    · exact read
    · exact h.terms t t_mem
  · have short := h.short
    simp only [Level.add, List.length_cons]
    omega

/-- The terms of a level make a branch: a single one stays as it is. -/
theorem Normal.branch (h : level.Normal symbols left) :
    level.branch.IsBranch ∧ level.branch.Everywhere (ReadNode symbols) := by
  have short := h.short
  unfold Level.branch
  -- a concatenation of one term is the term, which is a branch already
  by_cases single : level.terms.reverse.length = 1
  · obtain ⟨term, terms_eq⟩ := List.length_eq_one_iff.1 single
    have read := h.terms term (List.mem_reverse.1 (by simp [terms_eq]))
    rw [terms_eq]
    exact ⟨read.is_term.isBranch, read.everywhere⟩
  · rw [Tree.ofTerms_of_length_ne_one single]
    refine ⟨trivial, ?_⟩
    simp only [Tree.Everywhere, Tree.everywhereIn_iff]
    refine ⟨⟨⟨single, ?_⟩, ?_⟩, ?_⟩
    · exact fun t t_mem => (h.terms t (List.mem_reverse.1 t_mem)).is_term
    · simp only [Tree.ShortNode, List.length_reverse]
      omega
    · exact fun t t_mem => (h.terms t (List.mem_reverse.1 t_mem)).everywhere

theorem Normal.split (h : level.Normal symbols left) (lt : fewer < left) :
    level.split.Normal symbols fewer := by
  refine ⟨fun _ => nofun, ?_, ?_⟩
  · intro t t_mem
    rcases List.mem_cons.1 t_mem with rfl | t_mem
    · exact h.branch
    · exact h.branches t t_mem
  · have short := h.short
    simp only [Level.split, List.length_nil, List.length_cons]
    omega

/-- The branches of a level make a tree: a single one stays as it is. -/
theorem Normal.tree (h : level.Normal symbols left) :
    level.tree.Everywhere (ReadNode symbols) := by
  have short := h.short
  have all : ∀ t ∈ (level.branch :: level.branches).reverse,
      t.IsBranch ∧ t.Everywhere (ReadNode symbols) := by
    intro t t_mem
    rcases List.mem_cons.1 (List.mem_reverse.1 t_mem) with rfl | t_mem
    · exact h.branch
    · exact h.branches t t_mem
  unfold Level.tree
  -- there is a branch at least, the one that is still under way
  by_cases single : (level.branch :: level.branches).reverse.length = 1
  · obtain ⟨branch, branches_eq⟩ := List.length_eq_one_iff.1 single
    rw [branches_eq]
    exact (all branch (by simp [branches_eq])).2
  · rw [Tree.ofBranches_of_length_ne_one single]
    have several : 2 ≤ (level.branch :: level.branches).reverse.length := by
      simp only [List.length_reverse, List.length_cons] at single ⊢
      omega
    simp only [Tree.Everywhere, Tree.everywhereIn_iff]
    refine ⟨⟨⟨several, fun t t_mem => (all t t_mem).1⟩, ?_⟩, fun t t_mem => (all t t_mem).2⟩
    simp only [Tree.ShortNode, List.length_reverse, List.length_cons]
    omega

end Level

/-! ## Runs -/

/-- What has been read so far is made of the symbols of the pattern. -/
structure Progress.Normal (symbols : List Symbol) (p : Progress) : Prop where
  /-- The place reached is a place in the pattern. -/
  reached : (Cursor.start symbols).Reaches p.cursor
  /-- The level under way is normal. -/
  level : p.level.Normal symbols p.cursor.remaining
  /-- So are the levels around it, and the openings between them. -/
  groups : ∀ g ∈ p.groups,
    g.opening.Within symbols ∧ g.outer.Normal symbols p.cursor.remaining

namespace Progress

theorem normal_start (symbols : List Symbol) : (start symbols).Normal symbols where
  reached := .refl _
  level := Level.normal_empty (Nat.le_refl _)
  groups _ := nofun

/-- Each step keeps what has been read normal. -/
theorem Normal.onward {p q : Progress} (h : p.Normal symbols) (onward : p.Onward q) :
    q.Normal symbols := by
  have subset : p.cursor.rest ⊆ symbols := h.reached.subset
  have short : p.cursor.rest.length ≤ symbols.length := h.reached.length_le
  cases onward with
  | @bar stop piece =>
    -- the branch under way is complete, and the bar makes room for it
    have lt := remaining_lt_of_readPiece piece
    obtain ⟨to_stop, -⟩ := of_readPiece piece
    refine ⟨h.reached.trans to_stop, h.level.split lt, ?_⟩
    intro g g_mem
    exact ⟨(h.groups g g_mem).1, (h.groups g g_mem).2.mono (Nat.le_of_lt lt)⟩
  | @opening o stop piece =>
    -- the level under way is put aside as it is, with fewer symbols still to come
    have lt := remaining_lt_of_readPiece piece
    obtain ⟨to_stop, within⟩ := of_readPiece piece
    have to_stop := h.reached.trans to_stop
    refine ⟨to_stop, Level.normal_empty to_stop.length_le, ?_⟩
    intro g g_mem
    rcases List.mem_cons.1 g_mem with rfl | g_mem
    · exact ⟨within.mono short, h.level.mono (Nat.le_of_lt lt)⟩
    · exact ⟨(h.groups g g_mem).1, (h.groups g g_mem).2.mono (Nat.le_of_lt lt)⟩
  | @closing group outer term closed stop piece groups quantified =>
    -- the level under way becomes the body of a term of the level around it
    have lt := remaining_lt_of_readPiece piece
    have le := remaining_le_of_quantify quantified
    have lt' : stop.remaining < p.cursor.remaining := Nat.lt_of_le_of_lt le lt
    obtain ⟨to_closed, -⟩ := of_readPiece piece
    obtain ⟨to_stop, -⟩ := of_quantify quantified
    have h_groups := h.groups
    rw [groups] at h_groups
    obtain ⟨within, outer_normal⟩ := h_groups group (by simp)
    have wrapped := readTerm_of_wrap within h.level.tree
    have read : ReadTerm symbols term := by
      refine readTerm_of_quantify wrapped ?_ quantified
      cases group.opening <;> exact fun _ _ _ => nofun
    refine ⟨h.reached.trans (to_closed.trans to_stop), outer_normal.add read lt', ?_⟩
    intro g g_mem
    obtain ⟨within, g_normal⟩ := h_groups g (List.mem_cons_of_mem group g_mem)
    exact ⟨within, g_normal.mono (Nat.le_of_lt lt')⟩
  | @term t term ended stop piece quantified =>
    -- a leaf, repeated or not, is added to the level under way
    have lt := remaining_lt_of_readPiece piece
    have le := remaining_le_of_quantify quantified
    have lt' : stop.remaining < p.cursor.remaining := Nat.lt_of_le_of_lt le lt
    obtain ⟨to_ended, leaf, node⟩ := of_readPiece piece
    obtain ⟨to_stop, -⟩ := of_quantify quantified
    have leaf_read := readTerm_of_leaf leaf (node.mono subset)
    have read : ReadTerm symbols term := by
      refine readTerm_of_quantify leaf_read ?_ quantified
      intro body bounds greedy term_eq
      rw [term_eq] at leaf
      exact leaf
    refine ⟨h.reached.trans (to_ended.trans to_stop), h.level.add read lt', ?_⟩
    intro g g_mem
    exact ⟨(h.groups g g_mem).1, (h.groups g g_mem).2.mono (Nat.le_of_lt lt')⟩

end Progress

/-- Every node of a draft that is read can be read. -/
theorem everywhere_of_read {d : Draft} (h : read symbols = .ok d) :
    d.Everywhere (ReadNode symbols) := by
  obtain ⟨last, last_normal, -, -, rfl⟩ :=
    Progress.run_induction (fun _ _ normal onward => normal.onward onward)
      (Progress.normal_start symbols) h
  exact last_normal.level.tree

/-! ## Contents of brackets -/

variable {a : Alphabet} {m : Mode} {negated : Bool} {item : BracketItem} {items : List BracketItem}
  {x : Symbol}

/-- An item covers a symbol of a bracket. In a negated bracket a shorthand rules symbols out. -/
def BracketItem.Covers (a : Alphabet) (negated : Bool) (x : Symbol) : BracketItem → Prop
  | range low high => low ≤ x ∧ x ≤ high
  | shorthand kind => x ∈ if negated then a.resolveExcluded kind else a.resolve kind

namespace Gathered

variable {g : Gathered}

theorem mem_all : x ∈ g.all ↔
    x ∈ g.symbols ∨ ∃ i ∈ g.ranges, (Interval.between i.low i.high).Covers x := by
  rw [all, SymbolSet.mem_union, SymbolSet.mem_ofIntervals]

/-- One more item adds the symbols that it covers. -/
theorem mem_all_add (in_order : ∀ low high, item = .range low high → low ≤ high) :
    x ∈ (g.add a negated item).all ↔ x ∈ g.all ∨ item.Covers a negated x := by
  cases item with
  | range low high =>
    have between_eq : Interval.between low high = ⟨low, high⟩ := if_pos (in_order low high rfl)
    simp only [add, addRange, mem_all, List.mem_append, List.mem_singleton, or_and_right,
      exists_or, exists_eq_left, between_eq, or_assoc]
    rfl
  | shorthand kind =>
    simp only [add, addSet, mem_all, SymbolSet.mem_union, or_right_comm]
    rfl

end Gathered

/-- A bracket's set has the symbols that an item covers. -/
theorem mem_covered (in_order : ∀ low high, .range low high ∈ items → low ≤ high) :
    x ∈ covered a negated items ↔ ∃ item ∈ items, item.Covers a negated x := by
  -- said of the items after those that have been gathered
  have from_gathered (g : Gathered) : x ∈ (items.foldl (Gathered.add a negated) g).all ↔
      x ∈ g.all ∨ ∃ item ∈ items, item.Covers a negated x := by
    induction items generalizing g with
    | nil => simp
    | cons item items ih =>
      have in_order' := fun low high mem => in_order low high (List.mem_cons_of_mem item mem)
      have add_item : x ∈ (g.add a negated item).all ↔ x ∈ g.all ∨ item.Covers a negated x :=
        Gathered.mem_all_add fun low high eq => in_order low high (eq ▸ List.mem_cons_self)
      rw [List.foldl_cons, ih in_order', add_item, or_assoc]
      simp only [List.mem_cons, or_and_right, exists_or, exists_eq_left]
  have nothing_covers : x ∉ Gathered.nothing.all := by
    rw [Gathered.mem_all]
    rintro (in_empty | ⟨i, i_mem, -⟩)
    · exact SymbolSet.not_mem_empty x in_empty
    · cases i_mem
  unfold covered
  rw [from_gathered, or_iff_right nothing_covers]

theorem canonical_shorthandSet (sets : a.CanonicalSets) (negated : Bool) (kind : Shorthand) :
    (shorthandSet a negated kind).Canonical := by
  unfold shorthandSet
  split
  · exact sets.resolveExcluded kind
  · exact sets.resolve kind

/-- What a shorthand covers in a bracket are symbols of the alphabet. -/
theorem mem_full_of_mem_shorthandSet (lawful : a.Lawful) {kind : Shorthand}
    (h : x ∈ shorthandSet a negated kind) : x ∈ a.full := by
  unfold shorthandSet at h
  split at h
  · exact ((Alphabet.mem_resolveExcluded lawful).1 h).1
  · exact ((Alphabet.mem_resolve lawful).1 h).1

/-- The set of a bracket is canonical. -/
theorem canonical_covered (sets : a.CanonicalSets) (negated : Bool) (items : List BracketItem) :
    (covered a negated items).Canonical := by
  have canonical_symbols :
      (items.foldl (Gathered.add a negated) .nothing).symbols.Canonical := by
    refine List.foldlRecOn (motive := fun g : Gathered => g.symbols.Canonical) items _
      SymbolSet.canonical_empty fun g canonical item item_mem => ?_
    cases item with
    | range low high => exact canonical
    | shorthand kind =>
      have kind_set := canonical_shorthandSet sets negated kind
      exact SymbolSet.canonical_union canonical.ordered kind_set.ordered
  exact SymbolSet.canonical_union canonical_symbols.ordered
    (SymbolSet.canonical_ofIntervals _).ordered

/-- An item covers a symbol at least: a range one of its ends, a shorthand its
    representative. -/
theorem exists_covers_item [UnicodeClasses] (within : item.Within symbols) :
    ∃ x, item.Covers m.alphabet negated x := by
  cases item with
  | range low high => exact ⟨low, UInt32.le_refl low, within.2.2⟩
  | shorthand kind =>
    have stands_for := kind.representative_mem m
    have rules_out :=
      Alphabet.mem_resolveExcluded_of_mem_resolve (Alphabet.lawful_mode m) stands_for
    refine ⟨kind.representative, ?_⟩
    show _ ∈ if negated then m.alphabet.resolveExcluded kind else m.alphabet.resolve kind
    split
    · exact rules_out
    · exact stands_for

/-- The intervals that have been gathered start and end in the alphabet. -/
structure Gathered.Within (a : Alphabet) (g : Gathered) : Prop where
  /-- The ranges do. -/
  ranges : ∀ i ∈ g.ranges, i.low ∈ a.full ∧ i.high ∈ a.full
  /-- So do the intervals of the shorthands. -/
  symbols : ∀ i ∈ g.symbols.intervals, i.low ∈ a.full ∧ i.high ∈ a.full

theorem Gathered.Within.add [UnicodeClasses] {g : Gathered} (gathered : g.Within m.alphabet)
    (alphabetic : ∀ s ∈ symbols, s ∈ m.alphabet.full) (within : item.Within symbols) :
    (g.add m.alphabet negated item).Within m.alphabet := by
  cases item with
  | range low high =>
    refine ⟨fun i i_mem => ?_, gathered.symbols⟩
    rcases List.mem_append.1 i_mem with earlier | last
    · exact gathered.ranges i earlier
    · obtain rfl := List.mem_singleton.1 last
      exact ⟨alphabetic low within.1, alphabetic high within.2.1⟩
  | shorthand kind =>
    have lawful := Alphabet.lawful_mode m
    have canonical := canonical_shorthandSet lawful.canonicalSets negated kind
    refine ⟨gathered.ranges, fun i i_mem => ?_⟩
    refine SymbolSet.ends_of_mem_canonicalize (P := fun x => x ∈ m.alphabet.full) ?_ i_mem
    intro j j_mem
    rcases List.mem_append.1 j_mem with earlier | j_mem
    · exact gathered.symbols j earlier
    · have ordered := canonical.ordered j j_mem
      exact ⟨mem_full_of_mem_shorthandSet lawful ⟨j, j_mem, Interval.covers_low ordered⟩,
        mem_full_of_mem_shorthandSet lawful ⟨j, j_mem, Interval.covers_high ordered⟩⟩

theorem Gathered.Within.all {g : Gathered} (gathered : g.Within a) :
    ∀ i ∈ g.all.intervals, i.low ∈ a.full ∧ i.high ∈ a.full := by
  intro i i_mem
  refine SymbolSet.ends_of_mem_canonicalize (P := fun x => x ∈ a.full) ?_ i_mem
  intro j j_mem
  rcases List.mem_append.1 j_mem with j_mem | j_mem
  · exact gathered.symbols j j_mem
  · refine SymbolSet.ends_of_mem_canonicalize (P := fun x => x ∈ a.full) ?_ j_mem
    intro k k_mem
    obtain ⟨r, r_mem, rfl⟩ := List.mem_map.1 k_mem
    have ends := gathered.ranges r r_mem
    unfold Interval.between
    split
    · exact ends
    · exact ends.symm

/-- Items make normal contents. -/
theorem normalContent_covered [UnicodeClasses] (alphabetic : ∀ s ∈ symbols, s ∈ m.alphabet.full)
    (normal : NormalItems symbols items) :
    Tree.NormalContent m.alphabet (covered m.alphabet negated items) := by
  obtain ⟨not_empty, within⟩ := normal
  refine ⟨?_, canonical_covered (Alphabet.lawful_mode m).canonicalSets negated items, ?_⟩
  · -- the first item covers a symbol, and that symbol is still covered
    obtain ⟨item, item_mem⟩ := List.exists_mem_of_ne_nil items not_empty
    obtain ⟨x, covers⟩ := exists_covers_item (within item item_mem)
    have in_order := fun low high mem => (within (.range low high) mem).2.2
    obtain ⟨j, j_mem, -⟩ := (mem_covered in_order).2 ⟨item, item_mem, covers⟩
    exact List.ne_nil_of_mem j_mem
  · have gathered : (items.foldl (Gathered.add m.alphabet negated) .nothing).Within m.alphabet :=
      List.foldlRecOn items _ ⟨fun _ => nofun, fun _ => nofun⟩
        fun g earlier item item_mem => earlier.add alphabetic (within item item_mem)
    exact gathered.all

/-! ## Patterns -/

/-- Every tree that is read is normal, and its lists and names are hardly longer than the
    pattern. -/
theorem everywhere_of_parse [UnicodeClasses] {pattern : m.Value} {t : Tree SymbolSet}
    (h : parse m.alphabet (m.symbols pattern) = .ok t) :
    t.Normal m.alphabet ∧ t.Everywhere (Tree.ShortNode ((m.symbols pattern).length + 1)) := by
  unfold parse at h
  cases read_eq : read (m.symbols pattern) with
  | error e =>
    rw [read_eq] at h
    cases h
  | ok d =>
    rw [read_eq] at h
    cases h
    have read_everywhere := everywhere_of_read read_eq
    have alphabetic := Mode.symbols_mem_full pattern
    constructor
    · refine Tree.Everywhere.map read_everywhere fun node ⟨normal, _⟩ => ?_
      refine Tree.NormalNode.map normal ?_ ?_
      · exact fun s ⟨s_mem, _⟩ => alphabetic s s_mem
      · exact fun negated items normal => normalContent_covered alphabetic normal
    · exact Tree.Everywhere.map read_everywhere fun node ⟨_, short⟩ => short.map

end PatternSampler.Notation
