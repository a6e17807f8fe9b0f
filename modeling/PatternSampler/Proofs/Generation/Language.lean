import Mathlib.Computability.Language
import PatternSampler.Proofs.Alphabet
import PatternSampler.Proofs.Generation.Trace
import PatternSampler.Proofs.Random.Draws
import PatternSampler.Proofs.Tree.Everywhere

/-! # The language of a tree

  Which lists of symbols a tree may be written as, said without draws, limits or sets of
  intervals. The main statement is that generation is sound: a value that is generated
  consists of a word of the tree, with a word of the body of a lookbehind before it and one of
  a lookahead after it where these open and close the pattern.

  The proof goes through scripts, which have a language too: a trace that ends well has
  written a word of its script (`writes_trace`), and over a lawful alphabet the
  language of a script is that of the tree it was made from (`language_script`).
-/

namespace PatternSampler

/-- The words of one symbol that satisfies a condition. -/
def oneSymbol (p : Symbol → Prop) : Language Symbol := {w | ∃ x, p x ∧ w = [x]}

/-- The words of a language put together any number of times between two bounds. -/
def timesBetween (least most : Nat) (l : Language Symbol) : Language Symbol :=
  {w | ∃ k, least ≤ k ∧ k ≤ most ∧ w ∈ l ^ k}

/-! ## Languages of trees -/

namespace Tree

mutual

/-- The words of a tree over an alphabet, with a cap on unbounded repetitions. -/
def language (a : Alphabet) (cap : UInt32) : Tree SymbolSet → Language Symbol
  | literal s => {[s]}
  | wildcard => oneSymbol fun x => x ∈ a.full ∧ x ≠ .ofChar '\n'
  | bracket content negated =>
    oneSymbol fun x => x ∈ a.full ∧ (if negated then x ∉ content else x ∈ content)
  | shorthand kind =>
    oneSymbol fun x => x ∈ a.full ∧ Alphabet.Belongs CharClass.ascii kind x ∧
      Alphabet.Belongs a.extent kind x
  | concat terms => (languages a cap terms).prod
  | alternation branches => if branches.isEmpty then 1 else (languages a cap branches).sum
  | group body _ _ => body.language a cap
  | repetition body bounds _ =>
    timesBetween bounds.least.toNat (bounds.upper cap).toNat (body.language a cap)
  | look _ _ _ => 1
  | anchor _ => 1

/-- The words of each tree of a list. -/
def languages (a : Alphabet) (cap : UInt32) : List (Tree SymbolSet) → List (Language Symbol)
  | [] => []
  | t :: ts => t.language a cap :: languages a cap ts

end

@[simp] theorem languages_eq_map (a : Alphabet) (cap : UInt32) (ts : List (Tree SymbolSet)) :
    languages a cap ts = ts.map (language a cap) := by
  induction ts with
  | nil => simp [languages]
  | cons t ts ih => simp [languages, ih]

/-- The words of the body of a positive lookaround to the given side. Anything else, or
    nothing at all, adds no symbols. -/
def lookLanguage (a : Alphabet) (cap : UInt32) (side : Side) :
    Option (Tree SymbolSet) → Language Symbol
  | some (look s body false) => if s = side then body.language a cap else 1
  | _ => 1

/-- What may stand before the words of a pattern: words of the body of a positive lookbehind
    that opens it. -/
def leadLanguage (a : Alphabet) (cap : UInt32) (t : Tree SymbolSet) : Language Symbol :=
  lookLanguage a cap .behind t.uncovered.terms.head?

/-- What may stand after the words of a pattern: words of the body of a positive lookahead
    that closes it. -/
def trailLanguage (a : Alphabet) (cap : UInt32) (t : Tree SymbolSet) : Language Symbol :=
  lookLanguage a cap .ahead t.uncovered.terms.getLast?

end Tree

/-! ## Languages of scripts -/

namespace Script

mutual

/-- The words of a script. -/
def language : Script → Language Symbol
  | symbol s => {[s]}
  | choice set _ => oneSymbol fun x => x ∈ set
  | sequence parts => (languages parts).prod
  | branches scripts => if scripts.isEmpty then 1 else (languages scripts).sum
  | repetition least most body => timesBetween least.toNat most.toNat (language body)

/-- The words of each script of a list. -/
def languages : List Script → List (Language Symbol)
  | [] => []
  | script :: rest => language script :: languages rest

end

@[simp] theorem languages_eq_map (scripts : List Script) :
    languages scripts = scripts.map language := by
  induction scripts with
  | nil => simp [languages]
  | cons script rest ih => simp [languages, ih]

end Script

/-! ## Traces write words -/

namespace Tracing

variable {σ : Type} {l : Language Symbol}

/-- A part of a run that, if it ends well, has written a word of a language. -/
def Writes (part : Tracing σ Unit) (l : Language Symbol) : Prop :=
  ∀ source, (part source).outcome = .ok () → (part source).symbols ∈ l

theorem writes_pure : Writes (pure () : Tracing σ Unit) 1 := fun _ _ => rfl

/-- Parts one after the other write words one after the other. -/
theorem Writes.bind {first second : Tracing σ Unit} {m : Language Symbol}
    (writes_first : Writes first l) (writes_second : Writes second m) :
    Writes (first >>= fun _ => second) (l * m) := by
  intro source ended
  obtain ⟨_, first_ended, second_ended, symbols_eq⟩ := ok_of_bind ended
  rw [symbols_eq]
  exact Language.append_mem_mul (writes_first _ first_ended) (writes_second _ second_ended)

theorem Writes.replicate {part : Tracing σ Unit} (writes : Writes part l) (n : Nat) :
    Writes (replicate n part) (l ^ n) := by
  induction n with
  | zero => exact writes_pure
  | succ n ih =>
    rw [pow_succ']
    exact writes.bind ih

/-- Beginning a turn writes nothing. -/
theorem Writes.after_turn {part : Tracing σ Unit} (writes : Writes part l) :
    Writes (turn >>= fun _ => part) l := by
  intro source ended
  obtain ⟨_, -, part_ended, symbols_eq⟩ := ok_of_bind ended
  rw [symbols_eq]
  exact writes _ part_ended

end Tracing

namespace Script

open Tracing

variable {σ : Type} [WordSource σ]

mutual

/-- A trace that ends well has written a word of its script: one case for each kind of
    script. -/
theorem writes_trace : (script : Script) →
    Writes (script.trace : Tracing σ Unit) script.language
  | symbol s => by
    unfold trace language
    intro source _
    rfl
  | choice set context => by
    unfold trace language
    intro source ended
    obtain ⟨s, picked, -, symbols_eq⟩ := ok_of_bind ended
    obtain ⟨s_mem, none_written⟩ := pick_ok picked
    rw [symbols_eq, none_written]
    exact ⟨s, s_mem, rfl⟩
  | sequence parts => by
    unfold trace language
    rw [languages_eq_map]
    exact writes_traceAll parts
  | branches scripts => by
    unfold trace language
    intro source ended
    obtain ⟨chosen, drawn, branch_ended, symbols_eq⟩ := ok_of_bind ended
    rw [symbols_eq]
    -- the draw is made below one even if there is no branch to choose
    have chosen_lt : chosen < max scripts.length 1 := by
      cases drawn
      exact WordSource.index_lt source (by omega)
    cases scripts with
    | nil => exact writes_pure _ branch_ended
    | cons script rest =>
      have below : chosen < (script :: rest).length := by
        simp only [List.length_cons] at chosen_lt ⊢
        omega
      rw [languages_eq_map]
      exact writes_traceNth (script :: rest) chosen below _ branch_ended
  | repetition least most body => by
    unfold trace language
    intro source ended
    obtain ⟨count, drawn, turns_ended, symbols_eq⟩ := ok_of_bind ended
    obtain ⟨least_le, le_most, none_written⟩ := pickCount_ok drawn
    rw [symbols_eq, none_written]
    have turn_writes := (writes_trace body).after_turn
    exact ⟨count.toNat, least_le, le_most, turn_writes.replicate count.toNat _ turns_ended⟩

theorem writes_traceAll : (parts : List Script) →
    Writes (traceAll parts : Tracing σ Unit) (parts.map language).prod
  | [] => by
    unfold traceAll
    exact writes_pure
  | part :: rest => by
    unfold traceAll
    rw [List.map_cons, List.prod_cons]
    exact (writes_trace part).bind (writes_traceAll rest)

theorem writes_traceNth : (scripts : List Script) → (index : Nat) → index < scripts.length →
    Writes (traceNth scripts index : Tracing σ Unit) (scripts.map language).sum
  | [], _, below => nomatch below
  | script :: rest, 0, _ => by
    unfold traceNth
    rw [List.map_cons, List.sum_cons]
    intro source ended
    exact (Language.mem_add _ _ _).2 (Or.inl (writes_trace script source ended))
  | script :: rest, n + 1, below => by
    unfold traceNth
    rw [List.map_cons, List.sum_cons]
    intro source ended
    have in_rest := writes_traceNth rest n (Nat.lt_of_succ_lt_succ below) source ended
    exact (Language.mem_add _ _ _).2 (Or.inr in_rest)

end

end Script

/-! ## The language of a tree and that of its script -/

namespace Tree

variable {a : Alphabet} {cap : UInt32}

/-- The contents of a bracket are a canonical set. -/
def CanonicalBracket : Tree SymbolSet → Prop
  | bracket content _ => content.Canonical
  | _ => True

/-- Over a lawful alphabet the script of a tree has the words of the tree. -/
theorem language_script (lawful : a.Lawful) {t : Tree SymbolSet}
    (canonical : t.Everywhere CanonicalBracket) :
    (t.script a cap).language = t.language a cap := by
  induction t with
  | literal s => simp only [script, Script.language, language]
  | wildcard =>
    have line_feed := SymbolSet.canonical_single (.ofChar '\n')
    simp only [script, Script.wildcard, Script.wildcardChoices, Script.language, language]
    congr 1
    funext x
    rw [Alphabet.mem_complement line_feed, SymbolSet.mem_single]
  | bracket content negated =>
    have canonical : content.Canonical := canonical.self
    cases negated with
    | false =>
      simp only [script, Script.bracket, Script.language, language, Bool.false_eq_true, if_false,
        Alphabet.mem_restrict lawful canonical]
    | true =>
      simp only [script, Script.bracket, Script.language, language, if_true,
        Alphabet.mem_complement canonical]
  | shorthand kind =>
    simp only [script, Script.shorthand, Script.language, language, Alphabet.mem_resolve lawful]
  | concat terms ih =>
    simp only [script, scripts_eq_map, Script.language, Script.languages_eq_map, language,
      languages_eq_map, List.map_map]
    congr 1
    exact List.map_congr_left fun t ht => ih t ht (canonical.of_mem_children ht)
  | alternation branches ih =>
    simp only [script, scripts_eq_map, Script.language, Script.languages_eq_map, language,
      languages_eq_map, List.map_map, List.isEmpty_map]
    congr 2
    exact List.map_congr_left fun t ht => ih t ht (canonical.of_mem_children ht)
  | group body capturing name ih =>
    have body_canonical := canonical.of_mem_children (List.mem_singleton_self body)
    simp only [script, language]
    exact ih body_canonical
  | repetition body bounds greedy ih =>
    have body_canonical := canonical.of_mem_children (List.mem_singleton_self body)
    simp only [script, Script.language, language]
    rw [ih body_canonical]
  | look side body negative ih =>
    simp [script, Script.nothing, Script.language, Script.languages, language]
  | anchor anchor => simp [script, Script.nothing, Script.language, Script.languages, language]

/-! ## The ends of a pattern -/

/-- The terms at the top of a tree have the words of the tree. -/
theorem prod_uncovered_terms (t : Tree SymbolSet) :
    (t.uncovered.terms.map (language a cap)).prod = t.language a cap := by
  have of_terms : ∀ u : Tree SymbolSet,
      (u.terms.map (language a cap)).prod = u.language a cap := by
    intro u
    cases u with
    | concat terms => simp only [Tree.terms, language, languages_eq_map]
    | _ => exact mul_one _
  rw [of_terms]
  cases t with
  | group body capturing name => cases capturing <;> simp only [uncovered, language]
  | _ => rfl

/-- A mark of a plan is set when there is a term at that end and it is a positive lookaround
    to the outside. -/
theorem any_looksTo_iff {side : Side} {term : Option (Tree SymbolSet)} :
    term.any (looksTo side) = true ↔ ∃ body, term = some (look side body false) := by
  constructor
  · intro marked
    cases term with
    | none => cases marked
    | some t =>
      obtain ⟨body, rfl⟩ := looksTo_eq_true_iff.1 marked
      exact ⟨body, rfl⟩
  · rintro ⟨body, rfl⟩
    simp [looksTo]

theorem lookLanguage_of_unmarked {side : Side} {term : Option (Tree SymbolSet)}
    (unmarked : ¬ term.any (looksTo side) = true) : lookLanguage a cap side term = 1 := by
  unfold lookLanguage
  split
  · rename_i s body
    by_cases same : s = side
    · subst same
      exact absurd (any_looksTo_iff.2 ⟨body, rfl⟩) unmarked
    · exact if_neg same
  · rfl

variable {ts : List (Tree SymbolSet)} {closing : Tree SymbolSet}

/-- A lookaround has no words of its own, so that writing the body of the first in its place
    puts the words of the body before those of the terms. -/
theorem prod_opened (ts : List (Tree SymbolSet)) :
    ((if ts.head?.any (looksTo .behind) then ts.modify 0 lookBody else ts).map
        (language a cap)).prod =
      lookLanguage a cap .behind ts.head? * (ts.map (language a cap)).prod := by
  by_cases lead : ts.head?.any (looksTo .behind)
  · rw [if_pos lead]
    obtain ⟨opening, head⟩ := any_looksTo_iff.1 lead
    obtain ⟨rest, rfl⟩ := List.head?_eq_some_iff.1 head
    simp [lookLanguage, lookBody, language]
  · rw [if_neg lead, lookLanguage_of_unmarked lead, one_mul]

theorem prod_modify_last (last : ts.getLast? = some (look .ahead closing false)) :
    ((ts.modify (ts.length - 1) lookBody).map (language a cap)).prod =
      (ts.map (language a cap)).prod * closing.language a cap := by
  obtain ⟨init, rfl⟩ := List.getLast?_eq_some_iff.1 last
  have length_eq : (init ++ [look .ahead closing false]).length - 1 = init.length := by simp
  rw [length_eq, List.modify_eq_take_drop]
  simp [lookBody, language]

/-- One term cannot look both ways, so writing out the first leaves a lookahead at the end as
    it is. -/
theorem getLast?_opened (last : ts.getLast? = some (look .ahead closing false)) :
    (if ts.head?.any (looksTo .behind) then ts.modify 0 lookBody else ts).getLast? =
      some (look .ahead closing false) := by
  by_cases lead : ts.head?.any (looksTo .behind)
  · rw [if_pos lead]
    obtain ⟨opening, head⟩ := any_looksTo_iff.1 lead
    obtain ⟨rest, rfl⟩ := List.head?_eq_some_iff.1 head
    cases rest with
    -- the only term would look both ways
    | nil => cases last
    | cons second rest => exact last
  · rw [if_neg lead]
    exact last

/-- What is written has the words of the tree, with those of the lead before them and those
    of the trail after them. -/
theorem prod_written (t : Tree SymbolSet) :
    ((Plan.ofTree t).written.map (language a cap)).prod =
      t.leadLanguage a cap * t.language a cap * t.trailLanguage a cap := by
  rw [← prod_uncovered_terms t]
  unfold leadLanguage trailLanguage Plan.written Plan.ofTree
  generalize t.uncovered.terms = ts
  rw [← prod_opened ts]
  by_cases trail : ts.getLast?.any (looksTo .ahead)
  · obtain ⟨closing, last⟩ := any_looksTo_iff.1 trail
    -- the last index is taken from the terms before the first one is written out
    have length_eq : (if ts.head?.any (looksTo .behind) then ts.modify 0 lookBody
        else ts).length = ts.length := by
      split <;> simp
    rw [if_pos trail, last, ← length_eq]
    exact prod_modify_last (getLast?_opened last)
  · rw [if_neg trail, lookLanguage_of_unmarked trail, mul_one]

/-! ## Soundness -/

theorem language_wholeScript (lawful : a.Lawful) {t : Tree SymbolSet}
    (canonical : t.Everywhere CanonicalBracket) :
    (t.wholeScript a cap).language =
      t.leadLanguage a cap * t.language a cap * t.trailLanguage a cap := by
  rw [← prod_written t]
  simp only [wholeScript, scripts_eq_map, Script.language, Script.languages_eq_map,
    List.map_map]
  congr 1
  exact List.map_congr_left fun u mem => language_script lawful (canonical.of_mem_written mem)

/-- Generation is sound: a value is a word of the tree, after a word of the body of a
    lookbehind that opens the pattern and before a word of the body of a lookahead that
    closes it. -/
theorem generate_mem_language {σ : Type} [WordSource σ] {t : Tree SymbolSet}
    {settings : Settings} {source : σ} {out : List Symbol} (lawful : a.Lawful)
    (canonical : t.Everywhere CanonicalBracket)
    (generated : (t.generate a settings source).1 = .ok out) :
    ∃ x y z, out = x ++ y ++ z ∧ x ∈ t.leadLanguage a settings.repeatCap ∧
      y ∈ t.language a settings.repeatCap ∧ z ∈ t.trailLanguage a settings.repeatCap := by
  -- a value that is generated is what the trace wrote, and the trace wrote a word
  obtain ⟨ended, symbols_eq, -⟩ := Script.trace_of_generate_ok generated
  have in_script := Script.writes_trace (t.wholeScript a settings.repeatCap) source ended
  rw [language_wholeScript lawful canonical, symbols_eq] at in_script
  obtain ⟨xy, ⟨x, x_mem, y, y_mem, rfl⟩, z, z_mem, out_eq⟩ := in_script
  exact ⟨x, y, z, out_eq.symm, x_mem, y_mem, z_mem⟩

/-- The pattern `(?<=x)[ab]{2,}$(?=y|z)` over bytes: the value of one source starts with `x`,
    goes on with a word of `[ab]{2,}` and ends with a word of `y|z`. -/
theorem generate_mem_language_lookarounds :
    let t : Tree SymbolSet := .concat [.look .behind (.literal 120) false,
      .times (.bracket ⟨[⟨97, 98⟩]⟩ false) 2 none, .anchor .finish,
      .look .ahead (.alternation [.literal 121, .literal 122]) false]
    let settings : Settings := {}
    let source : Source := ⟨fun _ => 0, 0⟩
    Alphabet.bytes.Lawful ∧ t.Everywhere CanonicalBracket ∧
      (t.generate .bytes settings source).1 = .ok [120, 97, 97, 121] ∧
      ∃ x y z, [120, 97, 97, 121] = x ++ y ++ z ∧
        x ∈ t.leadLanguage .bytes settings.repeatCap ∧
        y ∈ t.language .bytes settings.repeatCap ∧
        z ∈ t.trailLanguage .bytes settings.repeatCap := by
  intro t settings source
  have canonical : t.Everywhere CanonicalBracket := by
    simp [t, Tree.times, Everywhere, CanonicalBracket, SymbolSet.Canonical]
  have generated : (t.generate .bytes settings source).1 = .ok [120, 97, 97, 121] := by
    decide +kernel
  exact ⟨Alphabet.lawful_bytes, canonical, generated,
    generate_mem_language Alphabet.lawful_bytes canonical generated⟩

end Tree

end PatternSampler
