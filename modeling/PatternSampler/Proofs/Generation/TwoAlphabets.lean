import PatternSampler.Proofs.Generation.Brackets
import PatternSampler.Proofs.Notation.Image
import PatternSampler.Proofs.Notation.Lockstep

/-! # One pattern over two alphabets

  The procedures that read a pattern are given an alphabet, and ask it what the shorthands in
  brackets cover. Run over two alphabets they are in step all the same: they end at the same place
  of the pattern, and either refuse it for the same reason or have two trees of one draft. These
  differ at most in the sets of brackets with a shorthand, because ranges mean the same
  everywhere.

  Over text and over bytes even these sets are the same if every symbol is ASCII and no negated
  shorthand is used. If moreover nothing is taken from the rest of the alphabet, by a wildcard or
  by a negated bracket, then every choice is made from the same set, and generating from the
  pattern is the same over both (`parse_over_alphabets`).
-/

namespace PatternSampler

variable {a b : Alphabet}

/-! ## Choices over two alphabets -/

namespace Tree

/-- A node offers the same choice of symbols over both alphabets. -/
def SameChoice (a b : Alphabet) : Tree SymbolSet → Prop
  | wildcard => Script.wildcard a = Script.wildcard b
  | bracket content negated => Script.bracket a content negated = Script.bracket b content negated
  | shorthand kind => Script.shorthand a kind = Script.shorthand b kind
  | _ => True

/-- A tree whose choices are the same has the same script. -/
theorem script_eq_of_sameChoice {cap : UInt32} {t : Tree SymbolSet}
    (same : t.Everywhere (SameChoice a b)) : t.script a cap = t.script b cap := by
  induction t with
  | literal _ | look _ _ _ _ | anchor _ => simp only [script]
  | wildcard =>
    unfold script
    exact same.self
  | bracket content negated =>
    unfold script
    exact same.self
  | shorthand kind =>
    unfold script
    exact same.self
  | concat terms ih =>
    have terms_eq : terms.map (script a cap) = terms.map (script b cap) :=
      List.map_congr_left fun u mem => ih u mem (same.of_mem_children mem)
    simp only [script, scripts_eq_map, terms_eq]
  | alternation branches ih =>
    have branches_eq : branches.map (script a cap) = branches.map (script b cap) :=
      List.map_congr_left fun u mem => ih u mem (same.of_mem_children mem)
    simp only [script, scripts_eq_map, branches_eq]
  | group body _ _ ih | repetition body _ _ ih =>
    simp only [script, ih (same.of_mem_children (List.mem_singleton_self body))]

/-- Generating from such a tree is the same, up to the source that is left. -/
theorem generate_eq_of_sameChoice {σ : Type} [WordSource σ] {t : Tree SymbolSet}
    (same : t.Everywhere (SameChoice a b)) (settings : Settings) (source : σ) :
    t.generate a settings source = t.generate b settings source := by
  have written_eq : ∀ cap, (Plan.ofTree t).written.map (script a cap) =
      (Plan.ofTree t).written.map (script b cap) := by
    intro cap
    exact List.map_congr_left fun u mem => script_eq_of_sameChoice (same.of_mem_written mem)
  simp only [generate, wholeScript, scripts_eq_map, written_eq]

end Tree

/-! ## ASCII symbols in text and bytes -/

/-- All members are ASCII. -/
def SymbolSet.Ascii (s : SymbolSet) : Prop := ∀ x ∈ s, x.toNat < 128

theorem CharClass.ascii_ascii (k : CharClass) : k.ascii.Ascii := fun _ => lt_of_mem_ascii

/-- Nothing is left out of a set of ASCII symbols in either mode. -/
theorem Mode.restrict_of_ascii [UnicodeClasses] (m : Mode) {s : SymbolSet} (canonical : s.Canonical)
    (ascii : s.Ascii) : m.alphabet.restrict s = s := by
  have lawful := Alphabet.lawful_mode m
  apply SymbolSet.eq_of_mem_iff (lawful.canonicalSets.restrict canonical) canonical
  intro x
  rw [Alphabet.mem_restrict lawful canonical]
  exact and_iff_right_of_imp fun x_mem => m.mem_full_of_ascii (ascii x x_mem)

theorem Mode.resolve_of_not_negated [UnicodeClasses] (m : Mode) {kind : Shorthand}
    (plain : kind.negated = false) : m.alphabet.resolve kind = kind.charClass.ascii := by
  unfold Alphabet.resolve
  rw [plain, if_neg Bool.false_ne_true]
  exact m.restrict_of_ascii (CharClass.canonical_ascii _) (CharClass.ascii_ascii _)

namespace Notation

/-! ## Drafts over two alphabets -/

variable {p : List Symbol} {d : Draft} {items : List BracketItem} {negated : Bool}

/-- Two trees of the same draft that differ at most in the sets of brackets with a shorthand. -/
def DifferInShorthands (d : Draft) (t u : Tree SymbolSet) : Prop :=
  ∃ f g : Bool → List BracketItem → SymbolSet, t = d.map f ∧ u = d.map g ∧
    ∀ negated items, (∀ kind, .shorthand kind ∉ items) → f negated items = g negated items

/-- The set of a bracket depends on the alphabet by its shorthands only. -/
theorem covered_congr (same : ∀ kind, .shorthand kind ∈ items →
      shorthandSet a negated kind = shorthandSet b negated kind) :
    covered a negated items = covered b negated items := by
  have gathered_eq : items.foldl (Gathered.add a negated) .nothing =
      items.foldl (Gathered.add b negated) .nothing := by
    apply List.foldl_ext
    intro g item item_mem
    cases item with
    | range low high => rfl
    | shorthand kind => exact congrArg g.addSet (same kind item_mem)
  exact congrArg Gathered.all gathered_eq

theorem differInShorthands_over (a b : Alphabet) (d : Draft) :
    DifferInShorthands d (d.over a) (d.over b) := by
  refine ⟨covered a, covered b, rfl, rfl, ?_⟩
  intro negated items no_shorthand
  exact covered_congr fun kind mem => absurd mem (no_shorthand kind)

/-- What two runs of the procedures that read a pattern come to, over two alphabets. They end at the
    same place. Both refuse the pattern, for the same reason, or both have a tree, and the trees are
    those of the draft of the pattern. -/
theorem runs_over_alphabets (a b : Alphabet) {limit : Nat} (enough : p.length < limit) :
    ∃ last, Descent.pattern a ⟨p, limit⟩ .start = some (parse a p, last) ∧
      Descent.pattern b ⟨p, limit⟩ .start = some (parse b p, last) ∧
      ((∃ e, parse a p = .error e ∧ parse b p = .error e) ∨
        ∃ d t u, read p = .ok d ∧ parse a p = .ok t ∧ parse b p = .ok u ∧
          DifferInShorthands d t u) := by
  obtain ⟨⟨last, run_a, -⟩, -⟩ := Descent.pattern_disciplined a ⟨p, limit⟩ enough
  obtain ⟨⟨last', run_b, -⟩, -⟩ := Descent.pattern_disciplined b ⟨p, limit⟩ enough
  have in_step := Descent.lockstep_pattern a b ⟨p, limit⟩ .start
  rw [run_a, run_b] at in_step ⊢
  generalize first_eq : parse a p = first, second_eq : parse b p = second at in_step ⊢
  cases in_step with
  | refusal => exact ⟨last, rfl, rfl, .inl ⟨_, rfl, rfl⟩⟩
  | value related =>
    refine ⟨last, rfl, rfl, .inr ?_⟩
    obtain ⟨d, d_read, rfl⟩ := parse_eq_ok_iff.1 first_eq
    obtain ⟨d', d'_read, rfl⟩ := parse_eq_ok_iff.1 second_eq
    obtain rfl := Except.ok.inj (d_read.symm.trans d'_read)
    exact ⟨d, _, _, d_read, rfl, rfl, differInShorthands_over a b d⟩

/-! ## Plain patterns over text and bytes -/

/-- A node takes nothing from the rest of the alphabet: it is no wildcard and no negated bracket,
    and it has no negated shorthand. -/
def PlainNode : Draft → Prop
  | .wildcard => False
  | .bracket items negated =>
    negated = false ∧ ∀ kind, .shorthand kind ∈ items → kind.negated = false
  | .shorthand kind => kind.negated = false
  | _ => True

/-- A plain draft has the same tree over text and over bytes. -/
theorem over_eq_of_plain [UnicodeClasses] (plain : d.Everywhere PlainNode) :
    d.over .text = d.over .bytes := by
  apply plain.map_congr
  rintro items negated ⟨rfl, positive⟩
  apply covered_congr
  intro kind kind_mem
  have in_text := Mode.text.resolve_of_not_negated (positive kind kind_mem)
  have in_bytes := Mode.bytes.resolve_of_not_negated (positive kind kind_mem)
  exact in_text.trans in_bytes.symm

/-- The set of a bracket that was read from ASCII symbols and has positive shorthands is ASCII. -/
theorem ascii_covered [UnicodeClasses] (ascii : ∀ s ∈ p, s.toNat < 128)
    (within : ∀ item ∈ items, item.Within p)
    (positive : ∀ kind, .shorthand kind ∈ items → kind.negated = false) :
    (covered .text false items).Ascii := by
  intro x x_mem
  have in_order : ∀ low high, .range low high ∈ items → low ≤ high :=
    fun low high mem => (within _ mem).2.2
  obtain ⟨item, item_mem, covers⟩ := (mem_covered in_order).1 x_mem
  cases item with
  | range low high =>
    have high_ascii := ascii high (within _ item_mem).2.1
    exact Nat.lt_of_le_of_lt covers.2 high_ascii
  | shorthand kind =>
    have covers : x ∈ Mode.text.alphabet.resolve kind := covers
    rw [Mode.text.resolve_of_not_negated (positive kind item_mem)] at covers
    exact CharClass.ascii_ascii _ x covers

/-- What is read from ASCII symbols and is plain offers the same choices in text and in bytes. -/
theorem sameChoice_of_plain [UnicodeClasses] (ascii : ∀ s ∈ p, s.toNat < 128) {n : Draft}
    (node : ReadNode p n) (plain : PlainNode n) :
    Tree.SameChoice .text .bytes (n.map (covered .text)) := by
  cases n with
  | wildcard => exact plain.elim
  | bracket items negated =>
    obtain ⟨rfl, positive⟩ := plain
    have within : ∀ item ∈ items, item.Within p := node.1.2
    have canonical := canonical_covered Alphabet.lawful_text.canonicalSets false items
    have all_ascii := ascii_covered ascii within positive
    have in_text := Mode.text.restrict_of_ascii canonical all_ascii
    have in_bytes := Mode.bytes.restrict_of_ascii canonical all_ascii
    show Script.choice (Mode.text.alphabet.restrict _) _ =
      Script.choice (Mode.bytes.alphabet.restrict _) _
    rw [in_text, in_bytes]
  | shorthand kind =>
    show Script.choice (Mode.text.alphabet.resolve _) _ =
      Script.choice (Mode.bytes.alphabet.resolve _) _
    rw [Mode.text.resolve_of_not_negated plain, Mode.bytes.resolve_of_not_negated plain]
  | literal _ | concat _ | alternation _ | group _ _ _ | repetition _ _ _ | look _ _ _
  | anchor _ => trivial

/-- What a pattern has in common over two alphabets.

    Over any two, the procedures that read it end at the same place, and it is refused for the same
    reason, or it has two trees that differ at most in the sets of brackets with a shorthand. A
    pattern of ASCII symbols that uses no wildcard, no negated bracket and no negated shorthand has
    the same tree over text and over bytes; and whatever the settings and the source, generating
    from it gives the same symbols over both, or the same failure, and leaves the same source. -/
theorem parse_over_alphabets [UnicodeClasses] (p : List Symbol) :
    (∀ a b limit, p.length < limit →
      ∃ last, Descent.pattern a ⟨p, limit⟩ .start = some (parse a p, last) ∧
        Descent.pattern b ⟨p, limit⟩ .start = some (parse b p, last) ∧
        ((∃ e, parse a p = .error e ∧ parse b p = .error e) ∨
          ∃ d t u, read p = .ok d ∧ parse a p = .ok t ∧ parse b p = .ok u ∧
            DifferInShorthands d t u)) ∧
    ((∀ s ∈ p, s.toNat < 128) → (∀ d, read p = .ok d → d.Everywhere PlainNode) →
      parse .text p = parse .bytes p ∧
      ∀ t, parse .text p = .ok t → ∀ {σ : Type} [WordSource σ] settings (source : σ),
        t.generate .text settings source = t.generate .bytes settings source) := by
  refine ⟨fun a b _ enough => runs_over_alphabets a b enough, ?_⟩
  intro ascii plain
  constructor
  · unfold parse
    cases d_read : read p with
    | error e => simp only [Except.map]
    | ok d => exact congrArg Except.ok (over_eq_of_plain (plain d d_read))
  · intro t parsed σ _ settings source
    obtain ⟨d, d_read, rfl⟩ := parse_eq_ok_iff.1 parsed
    apply Tree.generate_eq_of_sameChoice
    have nodes := (everywhere_of_read d_read).and (plain d d_read)
    exact nodes.map fun n node => sameChoice_of_plain ascii node.1 node.2

/-- A bracket with a shorthand, whose set is the same over text and bytes though the widest
    readings differ, and a repeated shorthand. -/
theorem parse_over_alphabets_word_digit :
    let p := ofChars ['[', '\\', 'w', ']', '\\', 'd', '*']
    let d : Draft := .concat [.bracket [.shorthand ⟨.word, false⟩] false,
      .repetition (.shorthand ⟨.digit, false⟩) ⟨0, none⟩ true]
    read p = .ok d ∧
      (∃ last, Descent.pattern .text ⟨p, 8⟩ .start = some (parse .text p, last) ∧
        Descent.pattern .bytes ⟨p, 8⟩ .start = some (parse .bytes p, last)) ∧
      (∀ s ∈ p, s.toNat < 128) ∧ d.Everywhere PlainNode ∧ parse .text p = parse .bytes p ∧
      ∀ settings (source : Source), (d.over .text).generate .text settings source =
        (d.over .text).generate .bytes settings source := by
  intro p d
  have bracket_read : Progress.step (.start p) = .ok (.onward
      ⟨[], ⟨[], [.bracket [.shorthand ⟨.word, false⟩] false]⟩, ⟨4, ofChars ['\\', 'd', '*']⟩⟩) := by
    cbv
  have d_read : read p = .ok d := by
    unfold read
    rw [Progress.run_of_onward bracket_read]
    cbv
  have ascii : ∀ s ∈ p, s.toNat < 128 := by simp [p, ofChars, Symbol.ofChar, Symbol]
  have plain : d.Everywhere PlainNode := by
    simp [d, Tree.Everywhere, PlainNode]
  have only_d : ∀ d', read p = .ok d' → d'.Everywhere PlainNode := by
    intro d' d'_read
    obtain rfl := Except.ok.inj (d_read.symm.trans d'_read)
    exact plain
  obtain ⟨runs, plain_alike⟩ := parse_over_alphabets p
  obtain ⟨last, in_text, in_bytes, -⟩ := runs .text .bytes 8 (by decide)
  have alike := plain_alike ascii only_d
  have parsed : parse .text p = .ok (d.over .text) := parse_eq_ok_iff.2 ⟨d, d_read, rfl⟩
  exact ⟨d_read, ⟨last, in_text, in_bytes⟩, ascii, plain, alike.1, alike.2 _ parsed⟩

end Notation

end PatternSampler
