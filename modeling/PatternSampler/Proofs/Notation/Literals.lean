import PatternSampler.Proofs.Notation.Nesting
import PatternSampler.Proofs.Notation.Writing

/-! # Literals in a row

  A symbol can be written so that it is read as itself wherever it stands. Written one after the
  other, such symbols become one literal each (`leads_literals`), for a literal neither ends with
  a part of a quantifier nor begins like one.

  `escape` is one way to write symbols like that: a backslash before each metacharacter and
  nothing before any other character. A dash needs no backslash, because it joins symbols only
  inside brackets.
-/

namespace PatternSampler.Notation

open Cursor

variable {groups : List OpenGroup} {position : Nat} {rest after : List Symbol} {s : Symbol}
  {symbols : List Symbol} {form : Symbol → List Symbol}

/-! ## Rows of literals -/

/-- What is written for a symbol is read as the symbol, and not as a quantifier of what stands
    before it. -/
structure ReadAsItself (form : Symbol → List Symbol) (s : Symbol) : Prop where
  /-- It is one piece, whatever follows. -/
  piece : ∀ position rest, readPiece ⟨position, form s ++ rest⟩ =
    .ok (some (.term (.literal s), ⟨position + (form s).length, rest⟩))
  /-- It starts no quantifier. -/
  quiet : ∀ rest, Quiet (form s ++ rest)

/-- A row of them starts no quantifier if nothing that follows it does. -/
theorem quiet_literals (themselves : ∀ s ∈ symbols, ReadAsItself form s) (quiet : Quiet after) :
    Quiet (symbols.flatMap form ++ after) := by
  rcases symbols with _ | ⟨next, symbols⟩
  · exact quiet
  · rw [List.flatMap_cons, List.append_assoc]
    exact (themselves next (by simp)).quiet _

/-- Symbols that are read as themselves become one literal each. -/
theorem leads_literals (themselves : ∀ s ∈ symbols, ReadAsItself form s) (quiet : Quiet after)
    (level : Level) :
    Progress.Leads ⟨groups, level, ⟨position, symbols.flatMap form ++ after⟩⟩
      ⟨groups, ⟨level.branches, (symbols.map .literal).reverse ++ level.terms⟩,
        ⟨position + (symbols.flatMap form).length, after⟩⟩ := by
  induction symbols generalizing position level with
  | nil => exact .refl
  | cons s symbols ih =>
    have others : ∀ s ∈ symbols, ReadAsItself form s :=
      fun s s_mem => themselves s (List.mem_cons_of_mem _ s_mem)
    -- the next symbol, or what follows the last one, is no quantifier of this one
    have no_quantifier := quiet_literals others quiet
    have piece := (themselves s (by simp)).piece position (symbols.flatMap form ++ after)
    have first := Progress.Onward.term (p := ⟨groups, level, _⟩) piece
      (quantify_of_quiet no_quantifier)
    have led := (ih others (level.add (.literal s))).head first
    rw [List.flatMap_cons, List.append_assoc]
    simpa only [Level.add, List.map_cons, List.reverse_cons, List.append_assoc,
      List.singleton_append, List.length_append, Nat.add_assoc] using led

/-- Up to the end of a pattern they are all that is added to the level under way. -/
theorem run_literals_to_end (themselves : ∀ s ∈ symbols, ReadAsItself form s) (level : Level) :
    Progress.run ⟨[], level, ⟨position, symbols.flatMap form⟩⟩ =
      .ok (Level.tree ⟨level.branches, (symbols.map .literal).reverse ++ level.terms⟩) := by
  have row := @leads_literals [] position [] symbols form themselves quiet_nil level
  rw [List.append_nil] at row
  rw [Progress.run_eq_of_leads row]
  apply Progress.run_of_finished
  exact Progress.step_eq_finished_iff.2 ⟨rfl, rfl, rfl, rfl⟩

/-! ## Metacharacters -/

/-- The characters that mean something outside brackets. -/
def metacharacters : List Char :=
  ['\\', '.', '^', '$', '|', '?', '*', '+', '(', ')', '[', ']', '{', '}']

/-- A symbol with a backslash before it, if it is a metacharacter. -/
def escapeSymbol (s : Symbol) : List Symbol :=
  if s ∈ ofChars metacharacters then [.ofChar '\\', s] else [s]

/-- Symbols with a backslash before each metacharacter. -/
def escape (symbols : List Symbol) : List Symbol := symbols.flatMap escapeSymbol

theorem mem_ofChars_iff {ch : Char} {chars : List Char} :
    Symbol.ofChar ch ∈ ofChars chars ↔ ch ∈ chars := by
  constructor
  · intro mem
    obtain ⟨other, other_mem, same⟩ := List.mem_map.1 mem
    have same : Symbol.char? (.ofChar other) = Symbol.char? (.ofChar ch) :=
      congrArg Symbol.char? same
    rw [Symbol.char?_ofChar, Symbol.char?_ofChar] at same
    exact Option.some.inj same ▸ other_mem
  · intro mem
    exact List.mem_map_of_mem mem

/-- A character that is no metacharacter is a literal as it is. -/
theorem readPiece_ordinary {ch : Char} (ordinary : ch ∉ metacharacters) :
    readPiece ⟨position, .ofChar ch :: rest⟩ =
      .ok (some (.term (.literal (.ofChar ch)), ⟨position + 1, rest⟩)) := by
  by_cases dash : ch = '-'
  · subst dash
    simp [readPiece, readTerm, bind, Except.bind]
  · apply readPiece_plain
    intro stands
    -- besides the metacharacters, only the dash may stand after a backslash
    have only_dash : ∀ ch ∈ ['.', '(', ')', '[', ']', '|', '\\', '*', '+', '?', '{', '}', '^',
        '$', '-'], ch ∈ metacharacters ∨ ch = '-' := by simp [metacharacters]
    rcases only_dash ch (of_decide_eq_true stands) with special | is_dash
    · exact ordinary special
    · exact dash is_dash

/-- Every character is read as itself when it is escaped. -/
theorem readAsItself_escapeSymbol (character : (Symbol.char? s).isSome) :
    ReadAsItself escapeSymbol s := by
  obtain ⟨ch, s_char⟩ := Option.isSome_iff_exists.1 character
  obtain rfl := Symbol.char?_eq_some_iff.1 s_char
  by_cases special : ch ∈ metacharacters
  · have form_eq : escapeSymbol (.ofChar ch) = [.ofChar '\\', .ofChar ch] :=
      if_pos (mem_ofChars_iff.2 special)
    have all_stand : ∀ ch ∈ metacharacters, standsForItself ch = true := by
      simp [metacharacters, standsForItself]
    have written : write (.literal (.ofChar ch)) = [.ofChar '\\', .ofChar ch] := by
      simp [write, writeSymbol, all_stand ch special]
    refine ⟨?_, ?_⟩
    · intro position rest
      rw [form_eq, ← written]
      exact readPiece_write_leaf trivial character
    · intro rest
      rw [form_eq]
      exact quiet_cons (by decide)
  · have form_eq : escapeSymbol (.ofChar ch) = [.ofChar ch] :=
      if_neg (mt mem_ofChars_iff.1 special)
    refine ⟨?_, ?_⟩
    · intro position rest
      rw [form_eq]
      exact readPiece_ordinary special
    · intro rest
      rw [form_eq]
      have marks : ∀ mark ∈ ['*', '+', '?', '{'], mark ∈ metacharacters := by
        simp [metacharacters]
      exact quiet_cons fun mark => special (marks ch mark)

/-- Escaped characters are read as a concatenation of literals. -/
theorem read_escape (characters : ∀ s ∈ symbols, (Symbol.char? s).isSome) :
    read (escape symbols) = .ok (.ofTerms (symbols.map .literal)) := by
  have themselves : ∀ s ∈ symbols, ReadAsItself escapeSymbol s :=
    fun s s_mem => readAsItself_escapeSymbol (characters s s_mem)
  have row := @run_literals_to_end 0 symbols escapeSymbol themselves .empty
  show Progress.run ⟨[], .empty, ⟨0, escape symbols⟩⟩ = _
  rw [escape, row]
  simp only [Level.tree, Level.branch, Level.empty, List.append_nil, List.reverse_reverse,
    List.reverse_singleton, Tree.ofBranches]

end PatternSampler.Notation
