import PatternSampler.Proofs.Notation.Image
import PatternSampler.Proofs.Notation.RoundTrip

/-! # Normal trees and patterns

  The normal trees over text or bytes are those that patterns are read as: a tree that is read
  is normal, and a normal tree can be written as a pattern that is read as the tree
  (`parse_pattern`).

  A tree is written as the draft whose brackets list the intervals of its sets. What is written
  consists of symbols of the alphabet, because all characters of the notation are ASCII.
-/

namespace PatternSampler

namespace Notation

/-! ## The symbols of the written form -/

/-- The symbols of a node satisfy a condition, and its name is valid. -/
def SymbolsNode (symbol : Symbol → Prop) : Draft → Prop
  | .literal s => symbol s
  | .bracket items _ => ∀ low high, .range low high ∈ items → symbol low ∧ symbol high
  | .group _ _ name => ∀ n, name = some n → ValidName n
  | _ => True

variable {symbol : Symbol → Prop}

theorem forall_mem_ofChars (ascii : ∀ ch : Char, ch.toNat < 128 → symbol (.ofChar ch))
    {chars : List Char} (all : ∀ ch ∈ chars, ch.toNat < 128) :
    ∀ s ∈ ofChars chars, symbol s := by
  intro s s_mem
  obtain ⟨ch, ch_mem, rfl⟩ := List.mem_map.1 s_mem
  exact ascii ch (all ch ch_mem)

theorem toNat_lt_of_mem_digits {n : Nat} : ∀ ch ∈ Nat.toDigits 10 n, ch.toNat < 128 := by
  intro ch ch_mem
  have digit : ch.isDigit = true := Nat.isDigit_of_mem_toDigits (by decide) (by decide) ch_mem
  exact toNat_lt_of_alphanum (Or.inl (by simp [Char.isAlphanum, digit]))

theorem forall_mem_writeAll {ts : List Draft} (h : ∀ t ∈ ts, ∀ x ∈ write t, symbol x) :
    ∀ x ∈ writeAll ts, symbol x := by
  induction ts with
  | nil => exact List.forall_mem_nil _
  | cons t ts ih =>
    have others := ih fun u u_mem => h u (List.mem_cons_of_mem t u_mem)
    rw [writeAll, List.forall_mem_append]
    exact ⟨h t (by simp), others⟩

section

variable (ascii : ∀ ch : Char, ch.toNat < 128 → symbol (.ofChar ch))

include ascii

theorem forall_mem_writeSymbol {s : Symbol} (h : symbol s) : ∀ x ∈ writeSymbol s, symbol x := by
  have backslash := ascii '\\' (by decide)
  unfold writeSymbol
  split
  · simp [h, backslash]
  · simp [h]

theorem forall_mem_writeShorthand (kind : Shorthand) :
    ∀ x ∈ writeShorthand kind, symbol x := by
  refine forall_mem_ofChars ascii ?_
  obtain ⟨c, negated⟩ := kind
  cases c <;> cases negated <;> simp [shorthandLetter]

theorem forall_mem_writeBracket {items : List BracketItem} {negated : Bool}
    (h : ∀ low high, .range low high ∈ items → symbol low ∧ symbol high) :
    ∀ x ∈ writeBracket items negated, symbol x := by
  have of_item : ∀ item ∈ items, ∀ x ∈ writeItem item, symbol x := by
    intro item item_mem
    cases item with
    | range low high =>
      obtain ⟨low_ok, high_ok⟩ := h low high item_mem
      have dash := ascii '-' (by decide)
      simp only [writeItem, List.forall_mem_append, List.forall_mem_cons]
      exact ⟨forall_mem_writeSymbol ascii low_ok, dash, forall_mem_writeSymbol ascii high_ok⟩
    | shorthand kind => exact forall_mem_writeShorthand ascii kind
  have opening := ascii '[' (by decide)
  have mark := ascii '^' (by decide)
  have closing := ascii ']' (by decide)
  simp only [writeBracket, List.forall_mem_append, List.forall_mem_cons, List.forall_mem_flatMap]
  refine ⟨opening, ?_, of_item, closing, List.forall_mem_nil _⟩
  split
  · simpa using mark
  · exact List.forall_mem_nil _

theorem forall_mem_writeQuantifier (b : Bounds) (greedy : Bool) :
    ∀ x ∈ writeQuantifier b greedy, symbol x := by
  have number : ∀ n : UInt32, ∀ x ∈ writeNumber n, symbol x :=
    fun n => forall_mem_ofChars ascii toNat_lt_of_mem_digits
  have opening := ascii '{' (by decide)
  have comma := ascii ',' (by decide)
  have closing := ascii '}' (by decide)
  have lazy := ascii '?' (by decide)
  simp only [writeQuantifier, writeBounds, List.forall_mem_append, List.forall_mem_cons]
  refine ⟨⟨opening, number b.least, comma, ?_, closing, List.forall_mem_nil _⟩, ?_⟩
  · cases b.most with
    | none => exact List.forall_mem_nil _
    | some most => exact number most
  · unfold writeGreediness
    split
    · exact List.forall_mem_nil _
    · simpa using lazy

theorem forall_mem_writeOpening {o : Opening}
    (h : ∀ capturing name, o = .group capturing (some name) → ValidName name) :
    ∀ x ∈ writeOpening o, symbol x := by
  unfold writeOpening
  split
  · exact forall_mem_ofChars ascii (by simp)
  · exact forall_mem_ofChars ascii (by simp)
  · rename_i capturing name
    have closing := ascii '>' (by decide)
    have named := forall_mem_ofChars ascii (toNat_lt_of_mem_name (h capturing name rfl))
    simp only [List.forall_mem_append, List.forall_mem_cons]
    exact ⟨forall_mem_ofChars ascii (by simp), named, closing, List.forall_mem_nil _⟩
  · exact forall_mem_ofChars ascii (by simp)
  · exact forall_mem_ofChars ascii (by simp)
  · exact forall_mem_ofChars ascii (by simp)
  · exact forall_mem_ofChars ascii (by simp)

theorem forall_mem_writeBranches {bs : List Draft} (h : ∀ b ∈ bs, ∀ x ∈ write b, symbol x) :
    ∀ x ∈ writeBranches bs, symbol x := by
  have bar := ascii '|' (by decide)
  induction bs with
  | nil => exact List.forall_mem_nil _
  | cons b bs ih =>
    cases bs with
    | nil => exact h b (by simp)
    | cons next bs =>
      have others := ih fun u u_mem => h u (List.mem_cons_of_mem b u_mem)
      rw [writeBranches_cons_cons, List.forall_mem_append, List.forall_mem_cons]
      exact ⟨h b (by simp), bar, others⟩

/-- What is written for a draft consists of ASCII characters and of the symbols of the draft. -/
theorem forall_mem_write {d : Draft} (h : d.Everywhere (SymbolsNode symbol)) :
    ∀ x ∈ write d, symbol x := by
  have closing := ascii ')' (by decide)
  have in_group : ∀ {o : Opening} {body : Draft}, (∀ x ∈ writeOpening o, symbol x) →
      (∀ x ∈ write body, symbol x) →
      ∀ x ∈ writeOpening o ++ (write body ++ [.ofChar ')']), symbol x := by
    intro o body opening_ok body_ok
    simp only [List.forall_mem_append, List.forall_mem_cons]
    exact ⟨opening_ok, body_ok, closing, List.forall_mem_nil _⟩
  induction d using Tree.induct with
  | literal s =>
    unfold write
    exact forall_mem_writeSymbol ascii h.self
  | wildcard =>
    unfold write
    exact forall_mem_ofChars ascii (by simp)
  | bracket items negated =>
    unfold write
    exact forall_mem_writeBracket ascii h.self
  | shorthand kind =>
    unfold write
    exact forall_mem_writeShorthand ascii kind
  | anchor a =>
    unfold write
    cases a <;> exact forall_mem_ofChars ascii (by simp)
  | concat terms ih =>
    unfold write
    exact forall_mem_writeAll fun t t_mem => ih t t_mem (h.of_mem_children t_mem)
  | alternation branches ih =>
    unfold write
    exact forall_mem_writeBranches ascii fun t t_mem => ih t t_mem (h.of_mem_children t_mem)
  | group body capturing name ih =>
    have names : ∀ n, name = some n → ValidName n := h.self
    have body_ok := ih (h.of_mem_children (List.mem_singleton_self body))
    unfold write
    refine in_group (forall_mem_writeOpening ascii ?_) body_ok
    intro _ n opening_eq
    cases opening_eq
    exact names n rfl
  | look side body negative ih =>
    have body_ok := ih (h.of_mem_children (List.mem_singleton_self body))
    unfold write
    refine in_group (forall_mem_writeOpening ascii ?_) body_ok
    intro _ _ opening_eq
    cases opening_eq
  | repetition body bounds greedy ih =>
    have body_ok := ih (h.of_mem_children (List.mem_singleton_self body))
    unfold write
    rw [List.forall_mem_append]
    exact ⟨body_ok, forall_mem_writeQuantifier ascii bounds greedy⟩

end

end Notation

/-! ## Trees as patterns -/

namespace Tree

open Notation

/-- The draft of a tree: each bracket lists the intervals of its set. -/
def draft (t : Tree SymbolSet) : Draft :=
  t.map fun _ s => s.intervals.map fun i => .range i.low i.high

/-- A tree as a pattern. -/
def pattern (m : Mode) (t : Tree SymbolSet) : m.Value := m.encode (write t.draft)

section

variable [UnicodeClasses] {m : Mode} {t : Tree SymbolSet}

theorem writable_draft (normal : t.Normal m.alphabet) : t.draft.Everywhere WritableNode := by
  refine Everywhere.map normal fun node node_normal => NormalNode.map node_normal ?_ ?_
  · exact fun s in_full => Mode.isSome_char? in_full
  · intro negated content content_normal
    refine ⟨by simpa using content_normal.not_empty, ?_⟩
    intro low high mem
    obtain ⟨i, i_mem, eq⟩ := List.mem_map.1 mem
    cases eq
    exact content_normal.canonical.ordered i i_mem

theorem symbols_draft (normal : t.Normal m.alphabet) :
    t.draft.Everywhere (SymbolsNode fun s => s ∈ m.alphabet.full) := by
  refine Everywhere.map normal fun node node_normal => ?_
  cases node with
  | literal s => exact node_normal
  | bracket content negated =>
    intro low high mem
    obtain ⟨i, i_mem, eq⟩ := List.mem_map.1 mem
    cases eq
    exact node_normal.ends i i_mem
  | group body capturing name => exact fun n name_eq => (node_normal n name_eq).2
  | _ => trivial

/-- Listing the intervals of a canonical set and covering them again gives the set. -/
theorem over_draft (normal : t.Normal m.alphabet) : t.draft.over m.alphabet = t := by
  refine Everywhere.map_map_eq_self normal fun content negated content_normal => ?_
  have canonical : content.Canonical := content_normal.canonical
  apply SymbolSet.eq_of_mem_iff
    (canonical_covered (Alphabet.lawful_mode m).canonicalSets negated _) canonical
  intro x
  have in_order (low high : Symbol)
      (mem : .range low high ∈ content.intervals.map fun i => BracketItem.range i.low i.high) :
      low ≤ high := by
    obtain ⟨i, i_mem, eq⟩ := List.mem_map.1 mem
    cases eq
    exact canonical.ordered i i_mem
  rw [mem_covered in_order]
  simp only [List.mem_map, exists_exists_and_eq_and]
  rfl

/-- A normal tree is read from the pattern that it is written as. -/
theorem parse_pattern (normal : t.Normal m.alphabet) :
    parse m.alphabet (m.symbols (t.pattern m)) = .ok t := by
  have alphabetic := forall_mem_write (fun _ => m.mem_full_of_ascii) (symbols_draft normal)
  unfold pattern parse
  rw [Mode.symbols_encode alphabetic, read_write (writable_draft normal)]
  show Except.ok (t.draft.over m.alphabet) = .ok t
  rw [over_draft normal]

/-- The normal trees are those that patterns are read as: what is read is normal, and a normal
    tree is read from the pattern that it is written as. -/
theorem parse_image (m : Mode) :
    (∀ (p : m.Value) (t : Tree SymbolSet),
      parse m.alphabet (m.symbols p) = .ok t → t.Normal m.alphabet) ∧
    (∀ t : Tree SymbolSet, t.Normal m.alphabet →
      parse m.alphabet (m.symbols (t.pattern m)) = .ok t) := by
  constructor
  · intro p t parsed
    exact (everywhere_of_parse parsed).1
  · intro t normal
    exact parse_pattern normal

end

/-- A normal tree of text with a named group, an empty branch, a negated bracket around the
    gap of the surrogates and a lazy quantifier without a greatest number. -/
theorem parse_image_surrogate_gap :
    let t : Tree SymbolSet := .concat [
      .group (.alternation [.literal (.ofChar '-'), .concat []]) true (some "n1"),
      .repetition (.bracket ⟨[⟨0xD7FF, 0xE000⟩]⟩ true) ⟨2, none⟩ false]
    t.Normal Mode.text.alphabet ∧
      t.pattern .text = "(?P<n1>\\-|)[^\uD7FF-\uE000]\x7b2,\x7d?" ∧
      parse Mode.text.alphabet (Mode.text.symbols (t.pattern .text)) = .ok t := by
  intro t
  have name : ValidName "n1" := ⟨'n', ['1'], by decide, by decide, by simp⟩
  have content : NormalContent Mode.text.alphabet ⟨[⟨0xD7FF, 0xE000⟩]⟩ :=
    ⟨by decide, by decide, by decide⟩
  have dash : Symbol.ofChar '-' ∈ Mode.text.alphabet.full := by decide
  have normal : t.Normal Mode.text.alphabet := by
    simp [t, Normal, Everywhere, EverywhereIn, NormalNode, IsTerm, IsBranch, IsQuantifiable,
      Bounds.Consistent, name, content, dash]
  refine ⟨normal, ?_, (parse_image .text).2 t normal⟩
  decide +kernel

end Tree

end PatternSampler
