import PatternSampler.Proofs.Generation.Limit
import PatternSampler.Proofs.Notation.Literals
import PatternSampler.Proofs.Stored.RoundTrip

/-! # Escaped values

  A value with a backslash before each metacharacter is a pattern for this value alone: it is
  compiled, and generating from it gives the value and draws nothing (`compile_escape`).

  The way goes through the symbols. The symbols of the escaped value are the escaped symbols of
  the value, which are read as literals; a row of literals is written as it stands, one step for
  each; and making a value of its own symbols gives it back.
-/

namespace PatternSampler

/-! ## Values -/

namespace Mode

open Notation

variable {m : Mode}

/-- The metacharacters as bytes. All of them are ASCII characters. -/
def metabytes : List UInt8 := metacharacters.map Char.toUInt8

/-- A value with a backslash before each metacharacter. -/
def escape : (m : Mode) → m.Value → m.Value
  | text, value =>
    String.ofList (value.toList.flatMap fun c => if c ∈ metacharacters then ['\\', c] else [c])
  | bytes, value =>
    value.flatMap fun b => if b ∈ metabytes then [Char.toUInt8 '\\', b] else [b]

theorem mem_metabytes_iff {b : UInt8} :
    b ∈ metabytes ↔ Symbol.ofByte b ∈ ofChars metacharacters := by
  have symbols_eq : metabytes.map Symbol.ofByte = ofChars metacharacters := by decide
  rw [← symbols_eq]
  constructor
  · intro mem
    exact List.mem_map_of_mem mem
  · intro mem
    obtain ⟨other, other_mem, same⟩ := List.mem_map.1 mem
    have same : other = b := by
      have back (b : UInt8) : (Symbol.ofByte b).toUInt8 = b := by simp [Symbol.ofByte]
      rw [← back other, ← back b, same]
    exact same ▸ other_mem

/-- Escaping a value escapes its symbols. -/
theorem symbols_escape (value : m.Value) :
    m.symbols (m.escape value) = Notation.escape (m.symbols value) := by
  cases m with
  | text =>
    show (String.ofList _).toList.map Symbol.ofChar =
      (value.toList.map Symbol.ofChar).flatMap escapeSymbol
    rw [String.toList_ofList, List.map_flatMap, List.flatMap_map]
    congr 1
    funext c
    by_cases special : c ∈ metacharacters
    · simp only [escapeSymbol, if_pos special, if_pos (mem_ofChars_iff.2 special), List.map_cons,
        List.map_nil]
    · simp only [escapeSymbol, if_neg special, if_neg (mt mem_ofChars_iff.1 special),
        List.map_cons, List.map_nil]
  | bytes =>
    have backslash : Symbol.ofByte (Char.toUInt8 '\\') = .ofChar '\\' := by decide
    show (List.flatMap _ value).map Symbol.ofByte =
      (value.map Symbol.ofByte).flatMap escapeSymbol
    rw [List.map_flatMap, List.flatMap_map]
    congr 1
    funext b
    by_cases special : b ∈ metabytes
    · simp only [escapeSymbol, if_pos special, if_pos (mem_metabytes_iff.1 special),
        List.map_cons, List.map_nil, backslash]
    · simp only [escapeSymbol, if_neg special, if_neg (mt mem_metabytes_iff.2 special),
        List.map_cons, List.map_nil]

end Mode

/-! ## Rows of literals -/

namespace Tree

variable {a : Alphabet} {cap : UInt32} {symbols : List Symbol}

/-- A row of literals is its own plan: there is no lookaround in it. -/
theorem written_literals (symbols : List Symbol) :
    (Plan.ofTree (ofTerms (symbols.map literal) : Tree SymbolSet)).written =
      symbols.map literal := by
  have terms_eq : (ofTerms (symbols.map literal) : Tree SymbolSet).uncovered.terms =
      symbols.map literal := by
    match symbols with
    | [] => rfl
    | [_] => rfl
    | _ :: _ :: _ => rfl
  have no_look : ∀ side, ∀ t ∈ symbols.map (literal (β := SymbolSet)), t.looksTo side = false := by
    intro side t t_mem
    obtain ⟨s, -, rfl⟩ := List.mem_map.1 t_mem
    rfl
  have no_lead :
      ((symbols.map (literal (β := SymbolSet))).head?.any (looksTo .behind)) = false := by
    rw [Option.any_eq_false]
    intro t is_first
    simpa using no_look .behind t (List.mem_of_head? is_first)
  have no_trail :
      ((symbols.map (literal (β := SymbolSet))).getLast?.any (looksTo .ahead)) = false := by
    rw [Option.any_eq_false]
    intro t is_last
    simpa using no_look .ahead t (List.mem_of_getLast? is_last)
  unfold Plan.ofTree Plan.written
  simp only [terms_eq, no_lead, no_trail, Bool.false_eq_true, if_false]

/-- Writing literals draws nothing and makes one step for each. -/
theorem traceAll_symbols {σ : Type} [WordSource σ] (symbols : List Symbol) (source : σ) :
    Script.traceAll (symbols.map .symbol) source = ⟨.ok (), source, symbols, 0⟩ := by
  induction symbols with
  | nil => rfl
  | cons s symbols ih =>
    have first : (Script.trace (.symbol s) source).outcome = .ok () := rfl
    rw [List.map_cons, Script.traceAll, Tracing.bind_of_ok first]
    show Trace.mk (Script.traceAll (symbols.map .symbol) source).outcome _ _ _ = _
    rw [show (Script.trace (.symbol s) source).source = source from rfl, ih]
    rfl

theorem trace_literals {σ : Type} [WordSource σ] (symbols : List Symbol) (source : σ) :
    (ofTerms (symbols.map literal)).trace a cap source = ⟨.ok (), source, symbols, 0⟩ := by
  have scripts_eq : scripts a cap (symbols.map literal) = symbols.map .symbol := by
    rw [scripts_eq_map, List.map_map]
    rfl
  unfold trace wholeScript
  rw [written_literals, scripts_eq]
  exact traceAll_symbols symbols source

/-- A row of literals is generated as it stands, if the limit allows for its length. -/
theorem generate_literals {σ : Type} [WordSource σ] {settings : Settings}
    (within : symbols.length ≤ settings.expansionLimit.toNat) (source : σ) :
    (ofTerms (symbols.map literal)).generate a settings source = (.ok symbols, source) := by
  have trace_eq := @trace_literals a settings.repeatCap σ _ symbols source
  rw [generate_eq_result]
  · rw [trace_eq]
    rfl
  · rw [trace_eq]
    exact within

end Tree

/-! ## Escaped values as patterns -/

namespace Pattern

open Notation

variable {m : Mode}

/-- Escaped symbols of text or bytes are parsed as a row of literals. -/
theorem parse_escape [UnicodeClasses] (value : m.Value) :
    parse m.alphabet (m.symbols (m.escape value)) =
      .ok (.ofTerms ((m.symbols value).map .literal)) := by
  have characters : ∀ s ∈ m.symbols value, (Symbol.char? s).isSome :=
    fun s s_mem => Mode.isSome_char? (Mode.symbols_mem_full value s s_mem)
  have over_eq : ∀ symbols : List Symbol, Draft.over m.alphabet (.ofTerms (symbols.map .literal)) =
      .ofTerms (symbols.map .literal) := by
    intro symbols
    match symbols with
    | [] => rfl
    | [_] => rfl
    | _ :: _ :: _ => simp [Draft.over, Tree.ofTerms, Tree.map]
  unfold parse
  rw [Mode.symbols_escape, read_escape characters]
  show Except.ok (Draft.over m.alphabet _) = _
  rw [over_eq]

/-- An escaped value is a pattern for the value.

    It is compiled, whatever the value is, and generating from it gives the value from every
    source of every kind and leaves the source as it was, if the limit allows for the symbols of
    the value. -/
theorem compile_escape [UnicodeClasses] (m : Mode) (value : m.Value) :
    ∃ q, compile m (m.escape value) = .ok q ∧
      ∀ settings : Settings, (m.symbols value).length ≤ settings.expansionLimit.toNat →
        (∀ {σ : Type} [WordSource σ] (source : σ),
          q.generateWith settings source = (.ok value, source)) ∧
        ∀ fresh, q.generate settings fresh = .ok value := by
  refine ⟨⟨.ofTerms ((m.symbols value).map .literal)⟩, ?_, ?_⟩
  · exact compile_eq_ok_iff.2 (parse_escape value)
  · intro settings within
    have generated {σ : Type} [WordSource σ] (source : σ) :
        generateWith ⟨.ofTerms ((m.symbols value).map .literal)⟩ settings source =
          (.ok value, source) := by
      unfold generateWith
      rw [Tree.generate_literals within]
      show (Except.ok (m.encode (m.symbols value)), source) = _
      rw [Mode.encode_symbols]
    refine ⟨generated, fun fresh => ?_⟩
    unfold generate
    rw [generated]

/-- A text that looks like a group with quantifiers, a bracket and a dash, with a line feed and
    a character past 16 bits, at a limit of exactly its length. -/
theorem compile_escape_group :
    let value := "(?:a|\x7b2,\x7d)*[^0-9]\n𝄞"
    let settings : Settings := { expansionLimit := 19 }
    let source := Source.seeded 5
    Mode.text.escape value = "\\(\\?:a\\|\\\x7b2,\\\x7d\\)\\*\\[\\^0-9\\]\n𝄞" ∧
      (Mode.text.symbols value).length = 19 ∧
      ∃ q, compile .text (Mode.text.escape value) = .ok q ∧
        q.generateWith settings source = (.ok value, source) := by
  intro value settings source
  have length_eq : (Mode.text.symbols value).length = 19 := by decide +kernel
  have within : (Mode.text.symbols value).length ≤ settings.expansionLimit.toNat := by
    rw [length_eq]
    decide
  obtain ⟨q, compiled, generates⟩ := compile_escape .text value
  refine ⟨by decide +kernel, length_eq, q, compiled, ?_⟩
  exact (generates settings within).1 source

end Pattern

end PatternSampler
