import PatternSampler.Proofs.Alphabet
import PatternSampler.Proofs.Generation.Trace
import PatternSampler.Proofs.Notation.Brackets
import PatternSampler.Proofs.Notation.Embedding
import PatternSampler.Proofs.Notation.Single
import PatternSampler.Proofs.Random.Steering

/-! # What brackets mean

  A bracket means its items. The set that is kept for it has the symbols that an item covers,
  and no others, so nothing but these matters: not the order of the items, nor whether they
  overlap.

  What an item with a shorthand covers is chosen with the matchers in mind, which may read a
  class of characters as the ASCII class or as the widest one of the alphabet. A symbol that is
  written for a bracket is in the bracket under either reading. Where no shorthand is used the
  readings agree, and every symbol of the alphabet that is in the bracket can be written.
-/

namespace PatternSampler

/-! ## What a choice writes -/

namespace Script

variable {set : SymbolSet} {context : String} {x : Symbol}

/-- Some run that performs the script with a source of the given kind, whatever came before in it,
    writes the symbol and nothing else. -/
def MayWrite (σ : Type) [WordSource σ] (script : Script) (x : Symbol) : Prop :=
  ∃ limit, ∃ run after : Run σ,
    script.perform limit run = .ok () after ∧ after.written = run.written.push x

theorem written_of_write {σ : Type} {limit : Option Nat} {run after : Run σ}
    (h : Action.write limit x run = .ok () after) : after.written = run.written.push x := by
  unfold Action.write at h
  cases stepped : Action.step limit run with
  | error failure stopped =>
    rw [Action.bind_of_error stepped] at h
    cases h
  | ok value middle =>
    rw [Action.bind_of_ok stepped] at h
    cases h
    have kept : middle.written = run.written := by
      unfold Action.step at stepped
      simp only at stepped
      split at stepped
      · split at stepped
        · cases stepped
        · cases stepped
          rfl
      · cases stepped
        rfl
    exact congrArg (Array.push · x) kept

/-- Picking a symbol of a set draws an index, and each index can be drawn. -/
theorem exists_pick_of_mem (size_le : set.size ≤ 2 ^ 64) (mem : x ∈ set) :
    ∃ source : Source, (Tracing.pick set context source).outcome = .ok x := by
  obtain ⟨index, below, found⟩ := SymbolSet.exists_nth?_of_mem mem
  obtain ⟨words, draws⟩ := @Source.canDraw_between .double _ _ below size_le
  have drawn := draws _ (Source.begins_ofWords words)
  have not_empty : set.size ≠ 0 := Nat.ne_of_gt (Nat.zero_lt_of_lt below)
  refine ⟨Source.ofWords words, ?_⟩
  unfold Tracing.pick
  rw [if_neg not_empty]
  have index_drawn : (Tracing.drawing (WordSource.between · .double 0 (set.size - 1))
      (Source.ofWords words)).outcome = .ok index := by
    simp only [Tracing.drawing, drawn]
  rw [Tracing.bind_of_ok index_drawn, found]
  rfl

/-- Whatever the kind of the source, a choice writes a symbol of its set. -/
theorem mem_of_mayWrite_choice {σ : Type} [WordSource σ]
    (may_write : (choice set context).MayWrite σ x) : x ∈ set := by
  obtain ⟨limit, run, after, performed, written⟩ := may_write
  have picked : Action.pick set context run = _ :=
    (Follows.pick set context : Follows none _ _).within run fun _ => nofun
  unfold perform at performed
  cases ended : (Tracing.pick set context run.source).outcome with
  | error failure =>
    rw [Trace.after_of_error ended] at picked
    rw [Action.bind_of_error picked] at performed
    cases performed
  | ok s =>
    obtain ⟨s_mem, nothing⟩ := Tracing.pick_ok ended
    rw [Trace.after_of_ok ended] at picked
    rw [Action.bind_of_ok picked] at performed
    -- picking has written nothing, so the symbol that was written is the one picked
    have pushed := written_of_write performed
    have unwritten :
        ((Tracing.pick set context run.source).extend run).written = run.written := by
      simp [Trace.extend, nothing]
    rw [unwritten, written] at pushed
    have same : s = x := (Array.push_eq_push.1 pushed).1.symm
    rw [← same]
    exact s_mem

/-- From a stream of words, each symbol of the set is written in some run. -/
theorem mayWrite_choice_iff (size_le : set.size ≤ 2 ^ 64) :
    (choice set context).MayWrite Source x ↔ x ∈ set := by
  constructor
  · exact mem_of_mayWrite_choice
  · intro mem
    obtain ⟨source, ended⟩ := @exists_pick_of_mem set context x size_le mem
    obtain ⟨-, nothing⟩ := Tracing.pick_ok ended
    have performed : (choice set context).perform none (.start source) = _ :=
      (follows_perform (choice set context)).within (.start source) fun _ => nofun
    have traced : (choice set context).trace source =
        ⟨.ok (), (Tracing.pick set context source).source, [x],
          (Tracing.pick set context source).turns⟩ := by
      unfold trace
      rw [Tracing.bind_of_ok ended, nothing]
      rfl
    have start_source : (Run.start source).source = source := rfl
    rw [start_source, traced] at performed
    refine ⟨none, _, _, performed, ?_⟩
    simp [Trace.extend]

end Script

/-! ## The symbols of a bracket -/

variable {a : Alphabet} {content : SymbolSet} {negated : Bool} {x : Symbol}

/-- The symbols that can be chosen for a bracket. -/
def Alphabet.bracketChoices (a : Alphabet) (content : SymbolSet) (negated : Bool) : SymbolSet :=
  if negated then a.complement content else a.restrict content

theorem Alphabet.canonical_bracketChoices (canonical : a.full.Canonical)
    (ordered : SymbolSet.Ordered content.intervals) :
    (a.bracketChoices content negated).Canonical := by
  unfold bracketChoices
  split
  · exact SymbolSet.canonical_difference canonical ordered
  · exact SymbolSet.canonical_intersection canonical ordered

/-- They are the symbols of the alphabet in its contents, or outside them. -/
theorem Alphabet.mem_bracketChoices (lawful : a.Lawful) (canonical : content.Canonical) :
    x ∈ a.bracketChoices content negated ↔ x ∈ a.full ∧ (x ∈ content ↔ negated = false) := by
  unfold bracketChoices
  cases negated with
  | true => simp [mem_complement canonical]
  | false => simp [mem_restrict lawful canonical]

/-- Only symbols that can be chosen are written for a bracket, whatever the kind of the source. -/
theorem mem_of_mayWrite_bracket {cap : UInt32} {σ : Type} [WordSource σ]
    (may_write : ((Tree.bracket content negated).script a cap).MayWrite σ x) :
    x ∈ a.bracketChoices content negated := by
  unfold Tree.script Script.bracket at may_write
  cases negated with
  | true => exact Script.mem_of_mayWrite_choice may_write
  | false => exact Script.mem_of_mayWrite_choice may_write

/-- From a stream of words, each of them is written in some run. -/
theorem mayWrite_bracket_iff (canonical : a.full.Canonical)
    (ordered : SymbolSet.Ordered content.intervals) {cap : UInt32} :
    ((Tree.bracket content negated).script a cap).MayWrite Source x ↔
      x ∈ a.bracketChoices content negated := by
  have small : (a.bracketChoices content negated).size ≤ 2 ^ 64 :=
    Nat.le_trans (Alphabet.canonical_bracketChoices canonical ordered).size_le (by decide)
  unfold Tree.script Script.bracket
  cases negated with
  | true => exact Script.mayWrite_choice_iff small
  | false => exact Script.mayWrite_choice_iff small

namespace Notation

/-! ## Items -/

/-- An item names a symbol, if classes of characters are read by `reading`. -/
def BracketItem.Names (reading : CharClass → SymbolSet) (x : Symbol) : BracketItem → Prop
  | range low high => low ≤ x ∧ x ≤ high
  | shorthand kind => Alphabet.Belongs reading kind x

/-- A symbol is in a bracket as it is written, if classes of characters are read by `reading`: an
    item names it, or the bracket is negated and none does. -/
def InBracket (reading : CharClass → SymbolSet) (negated : Bool) (items : List BracketItem)
    (x : Symbol) : Prop :=
  (∃ item ∈ items, item.Names reading x) ↔ negated = false

/-- A class of characters is read as the ASCII class, or as the widest one of the alphabet. -/
def IsReading (a : Alphabet) (reading : CharClass → SymbolSet) : Prop :=
  reading = CharClass.ascii ∨ reading = a.extent

variable {item : BracketItem} {items : List BracketItem} {reading : CharClass → SymbolSet}

/-- The ranges of a bracket that can be read are in order. -/
theorem ItemsForm.in_order {first : Bool} {text : List Symbol} (form : ItemsForm first items text) :
    ∀ low high, .range low high ∈ items → low ≤ high := by
  induction form with
  | closing => intro low high mem; cases mem
  | item form _ _ ih =>
    intro low high mem
    rcases List.mem_cons.1 mem with rfl | later
    · cases form with
      | single _ _ => exact UInt32.le_refl _
      | range _ _ _ in_order => exact in_order
    · exact ih low high later

theorem BracketForm.in_order {text : List Symbol} (form : BracketForm negated items text) :
    ∀ low high, .range low high ∈ items → low ≤ high := by
  cases form with
  | positive form _ => exact form.in_order
  | negated form => exact form.in_order

/-! ## Readings -/

/-- What an item covers in a positive bracket it names under either reading. -/
theorem names_of_covers (lawful : a.Lawful) (is_reading : IsReading a reading)
    (covers : item.Covers a false x) : item.Names reading x := by
  cases item with
  | range low high => exact covers
  | shorthand kind =>
    obtain ⟨-, narrow, wide⟩ := (Alphabet.mem_resolve lawful).1 covers
    rcases is_reading with rfl | rfl
    · exact narrow
    · exact wide

/-- What an item names under either reading it covers in a negated bracket. -/
theorem covers_of_names (lawful : a.Lawful) (is_reading : IsReading a reading)
    (in_full : x ∈ a.full) (names : item.Names reading x) : item.Covers a true x := by
  cases item with
  | range low high => exact names
  | shorthand kind =>
    apply (Alphabet.mem_resolveExcluded lawful).2
    rcases is_reading with rfl | rfl
    · exact ⟨in_full, Or.inl names⟩
    · exact ⟨in_full, Or.inr names⟩

/-- A symbol that is kept for a bracket is in it under either reading. -/
theorem inBracket_of_mem (lawful : a.Lawful) (is_reading : IsReading a reading)
    (in_order : ∀ low high, .range low high ∈ items → low ≤ high)
    (in_full : x ∈ a.full) (kept : x ∈ covered a negated items ↔ negated = false) :
    InBracket reading negated items x := by
  rw [mem_covered in_order] at kept
  unfold InBracket
  cases negated with
  | false =>
    obtain ⟨item, item_mem, covers⟩ := kept.2 rfl
    exact iff_of_true ⟨item, item_mem, names_of_covers lawful is_reading covers⟩ rfl
  | true =>
    -- more is covered here than either reading names, so less is left to write
    refine iff_of_false ?_ nofun
    rintro ⟨item, item_mem, names⟩
    have covers := covers_of_names lawful is_reading in_full names
    exact absurd (kept.1 ⟨item, item_mem, covers⟩) nofun

/-- Without shorthands an item covers what it names, in every bracket and under every reading. -/
theorem mem_covered_iff_names (reading : CharClass → SymbolSet)
    (in_order : ∀ low high, .range low high ∈ items → low ≤ high)
    (no_shorthand : ∀ kind, .shorthand kind ∉ items) :
    x ∈ covered a negated items ↔ ∃ item ∈ items, item.Names reading x := by
  rw [mem_covered in_order]
  constructor
  · rintro ⟨item, item_mem, covers⟩
    cases item with
    | range low high => exact ⟨_, item_mem, covers⟩
    | shorthand kind => exact absurd item_mem (no_shorthand kind)
  · rintro ⟨item, item_mem, names⟩
    cases item with
    | range low high => exact ⟨_, item_mem, names⟩
    | shorthand kind => exact absurd item_mem (no_shorthand kind)

/-! ## Brackets as patterns -/

variable {text : List Symbol} {s : SymbolSet}

/-- The patterns that are one bracket are those of its form. -/
theorem parse_bracket_iff : parse a text = .ok (.bracket s negated) ↔
    ∃ items, BracketForm negated items text ∧ s = covered a negated items := by
  constructor
  · intro parsed
    obtain ⟨d, d_read, over_eq⟩ := parse_eq_ok_iff.1 parsed
    cases d with
    | bracket items negated' =>
      obtain ⟨s_eq, rfl⟩ := Tree.bracket.inj over_eq
      have piece := readPiece_of_read d_read trivial trivial
      obtain ⟨text', form, passes⟩ := readPiece_bracket_iff.1 piece
      have text_eq : text = text' ++ [] := passes.1
      rw [List.append_nil] at text_eq
      rw [text_eq]
      exact ⟨items, form, s_eq.symm⟩
    | literal _ | wildcard | shorthand _ | concat _ | alternation _ | group _ _ _
    | repetition _ _ _ | look _ _ _ | anchor _ => cases over_eq
  · rintro ⟨items, form, rfl⟩
    have passes : Cursor.Passes (.start text) text ⟨text.length, []⟩ :=
      ⟨(List.append_nil text).symm, (Nat.zero_add text.length).symm⟩
    have piece := readPiece_bracket_iff.2 ⟨text, form, passes⟩
    refine parse_eq_ok_iff.2 ⟨.bracket items negated, ?_, rfl⟩
    show Progress.run ⟨[], .empty, _⟩ = _
    rw [readOn_of_run piece]
    exact bind_eq_ok_iff.2 ⟨_, quantify_of_quiet quiet_nil, run_single _ _⟩

/-- What a bracket means over a lawful alphabet, such as those of text and of bytes.

    A bracket is read exactly where its text begins, and its text is a pattern of its own. The
    set that is kept for it is canonical and has the symbols that some item covers, so items that
    cover the same symbols make the same tree. Every symbol that can be written for the bracket
    is in it as it is written, whether classes are read as ASCII or as widely as the alphabet
    allows, and whatever the kind of the source; and if there are no shorthands, all symbols of the
    alphabet that are in it can be written from a stream of words. -/
theorem bracket_means_items (lawful : a.Lawful) (negated : Bool) :
    (∀ c d items, readPiece c = .ok (some (.term (.bracket items negated), d)) ↔
      ∃ text, BracketForm negated items text ∧ c.Passes text d) ∧
    (∀ text s, parse a text = .ok (.bracket s negated) ↔
      ∃ items, BracketForm negated items text ∧ s = covered a negated items) ∧
    ∀ items text, BracketForm negated items text →
      (covered a negated items).Canonical ∧
      (∀ x, x ∈ covered a negated items ↔ ∃ item ∈ items, item.Covers a negated x) ∧
      (∀ items' text', BracketForm negated items' text' →
        (∀ x, (∃ item ∈ items', item.Covers a negated x) ↔
          ∃ item ∈ items, item.Covers a negated x) →
        parse a text' = parse a text) ∧
      (∀ {σ : Type} [WordSource σ] cap reading x, IsReading a reading →
        ((Tree.bracket (covered a negated items) negated).script a cap).MayWrite σ x →
        x ∈ a.full ∧ InBracket reading negated items x) ∧
      ((∀ kind, .shorthand kind ∉ items) → ∀ cap reading x,
        ((Tree.bracket (covered a negated items) negated).script a cap).MayWrite Source x ↔
        x ∈ a.full ∧ InBracket reading negated items x) := by
  refine ⟨fun _ _ _ => readPiece_bracket_iff, fun _ _ => parse_bracket_iff, ?_⟩
  intro items text form
  have canonical : (covered a negated items).Canonical :=
    canonical_covered lawful.canonicalSets negated items
  refine ⟨canonical, fun _ => mem_covered form.in_order, ?_, ?_, ?_⟩
  · intro items' text' form' same
    have canonical' : (covered a negated items').Canonical :=
      canonical_covered lawful.canonicalSets negated items'
    have covered_eq : covered a negated items' = covered a negated items := by
      apply SymbolSet.eq_of_mem_iff canonical' canonical
      intro x
      rw [mem_covered form'.in_order, mem_covered form.in_order, same x]
    rw [parse_bracket_iff.2 ⟨items', form', rfl⟩, parse_bracket_iff.2 ⟨items, form, rfl⟩,
      covered_eq]
  · intro σ _ cap reading x is_reading may_write
    obtain ⟨in_full, kept⟩ :=
      (Alphabet.mem_bracketChoices lawful canonical).1 (mem_of_mayWrite_bracket may_write)
    exact ⟨in_full, inBracket_of_mem lawful is_reading form.in_order in_full kept⟩
  · intro no_shorthand cap reading x
    rw [mayWrite_bracket_iff lawful.full canonical.ordered,
      Alphabet.mem_bracketChoices lawful canonical,
      mem_covered_iff_names reading form.in_order no_shorthand]
    rfl

/-- A bracket that begins with `]` and ends with a dash, and one with the same items in another
    order, where `]` is escaped. -/
theorem bracket_means_items_reordered :
    let text := ofChars ['[', ']', 'a', '-', 'c', '-', ']']
    let text' := ofChars ['[', '-', 'a', '-', 'c', '\\', ']', ']']
    let items : List BracketItem := [.range 0x5D 0x5D, .range 0x61 0x63, .range 0x2D 0x2D]
    let items' : List BracketItem := [.range 0x2D 0x2D, .range 0x61 0x63, .range 0x5D 0x5D]
    let script := (Tree.bracket (covered .text false items) false).script .text 10
    BracketForm false items text ∧ BracketForm false items' text' ∧
      parse .text text' = parse .text text ∧
      script.MayWrite Source 0x62 ∧ InBracket CharClass.unicode false items 0x62 := by
  intro text text' items items' script
  have plain (ch : Char) (no_backslash : Symbol.ofChar ch ≠ .ofChar '\\') :
      AtomForm (.symbol (.ofChar ch)) [.ofChar ch] := .plain no_backslash
  have letters (rest : List Symbol) : ItemForm (.range 0x61 0x63) (ofChars ['a', '-', 'c']) rest :=
    .range (plain 'a' (by decide)) (plain 'c' (by decide)) (by decide) (by decide)
  have alone (s : Symbol) (rest : List Symbol) (no_dash : s ≠ .ofChar '-') :
      ¬ JoinsOn (s :: rest) := by
    cases rest with
    | nil => exact id
    | cons _ _ => exact fun joins => no_dash joins.1
  have form : BracketForm false items text := by
    have dash : ItemsForm false [.range 0x2D 0x2D] (ofChars ['-', ']']) :=
      .item (.single (plain '-' (by decide)) (alone _ _ (by decide))) (Or.inr (by decide)) .closing
    have range : ItemsForm false [.range 0x61 0x63, .range 0x2D 0x2D]
        (ofChars ['a', '-', 'c'] ++ ofChars ['-', ']']) :=
      .item (letters _) (Or.inr (by decide)) dash
    have all : ItemsForm true items ([.ofChar ']'] ++ ofChars ['a', '-', 'c', '-', ']']) :=
      .item (.single (plain ']' (by decide)) (alone _ _ (by decide))) (Or.inl rfl) range
    exact .positive all (by decide)
  have form' : BracketForm false items' text' := by
    have escaped : AtomForm (.symbol 0x5D) (ofChars ['\\', ']']) :=
      @AtomForm.escaped ']' (by decide)
    have last : ItemsForm false [.range 0x5D 0x5D] (ofChars ['\\', ']'] ++ [.ofChar ']']) :=
      .item (.single escaped (alone _ _ (by decide))) (Or.inr (by decide)) .closing
    have range : ItemsForm false [.range 0x61 0x63, .range 0x5D 0x5D]
        (ofChars ['a', '-', 'c'] ++ ofChars ['\\', ']', ']']) :=
      .item (letters _) (Or.inr (by decide)) last
    have all : ItemsForm true items' ([.ofChar '-'] ++ ofChars ['a', '-', 'c', '\\', ']', ']']) :=
      .item (.single (plain '-' (by decide)) (alone _ _ (by decide))) (Or.inl rfl) range
    exact .positive all (by decide)
  have meaning := (bracket_means_items Alphabet.lawful_text false).2.2 items text form
  obtain ⟨-, -, reordered, in_bracket, drawable⟩ := meaning
  have same : parse .text text' = parse .text text := by
    apply reordered items' text' form'
    intro x
    -- the first and the last of three alternatives change places
    simp only [items, items', List.mem_cons, List.not_mem_nil, or_false, exists_eq_or_imp,
      exists_eq_left]
    exact or_rotate.trans or_left_comm
  have b_named : InBracket CharClass.ascii false items 0x62 :=
    iff_of_true ⟨.range 0x61 0x63, by decide, by decide, by decide⟩ rfl
  have b_written : script.MayWrite Source 0x62 :=
    (drawable (by simp [items]) 10 CharClass.ascii 0x62).2
      ⟨Mode.mem_full_text.2 (by decide), b_named⟩
  exact ⟨form, form', same, b_written, (in_bracket 10 _ 0x62 (Or.inr rfl) b_written).2⟩

end Notation

end PatternSampler
