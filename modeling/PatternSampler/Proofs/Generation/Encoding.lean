import PatternSampler.Proofs.Generation.Language
import PatternSampler.Proofs.Stored.Loading

/-! # Values are made of all that was generated

  Making a value of symbols leaves out those that the mode does not have. None of the symbols
  that are generated are left out (`encode_generated`): the words of a tree are made of symbols
  of the alphabet (`madeOf_language`), if its literals are, and both compiling and loading see
  to that. A bracket may name other symbols, even some on both sides of a gap in the alphabet,
  since what is generated for it is taken from the alphabet as well.
-/

namespace PatternSampler

/-! ## Languages over some symbols -/

/-- All words of a language are made of symbols that satisfy a condition. -/
def MadeOf (p : Symbol → Prop) (l : Language Symbol) : Prop := ∀ w ∈ l, ∀ s ∈ w, p s

section

variable {p : Symbol → Prop} {l m : Language Symbol}

theorem madeOf_one : MadeOf p 1 := by
  intro w w_mem s s_mem
  rw [(Language.mem_one w).1 w_mem] at s_mem
  cases s_mem

theorem madeOf_oneSymbol {q : Symbol → Prop} (imp : ∀ x, q x → p x) : MadeOf p (oneSymbol q) := by
  rintro w ⟨x, x_holds, rfl⟩ s s_mem
  obtain rfl := List.mem_singleton.1 s_mem
  exact imp s x_holds

theorem MadeOf.mul (first : MadeOf p l) (second : MadeOf p m) : MadeOf p (l * m) := by
  intro w w_mem s s_mem
  obtain ⟨x, x_mem, y, y_mem, rfl⟩ := Language.mem_mul.1 w_mem
  rcases List.mem_append.1 s_mem with s_mem | s_mem
  · exact first x x_mem s s_mem
  · exact second y y_mem s s_mem

theorem MadeOf.timesBetween (h : MadeOf p l) (least most : Nat) :
    MadeOf p (timesBetween least most l) := by
  have powers : ∀ k, MadeOf p (l ^ k) := by
    intro k
    induction k with
    | zero => exact madeOf_one
    | succ k ih =>
      rw [pow_succ]
      exact ih.mul h
  rintro w ⟨k, -, -, w_mem⟩
  exact powers k w w_mem

theorem madeOf_prod {ls : List (Language Symbol)} (each : ∀ l ∈ ls, MadeOf p l) :
    MadeOf p ls.prod := by
  induction ls with
  | nil => exact madeOf_one
  | cons l ls ih =>
    rw [List.prod_cons]
    have others := ih fun k k_mem => each k (List.mem_cons_of_mem l k_mem)
    exact (each l (by simp)).mul others

theorem madeOf_sum {ls : List (Language Symbol)} (each : ∀ l ∈ ls, MadeOf p l) :
    MadeOf p ls.sum := by
  induction ls with
  | nil =>
    intro w w_mem
    exact absurd w_mem (Language.notMem_zero w)
  | cons l ls ih =>
    intro w w_mem
    rw [List.sum_cons] at w_mem
    rcases (Language.mem_add _ _ _).1 w_mem with w_mem | w_mem
    · exact each l (by simp) w w_mem
    · exact ih (fun k k_mem => each k (List.mem_cons_of_mem l k_mem)) w w_mem

end

/-! ## Trees -/

namespace Tree

variable {a : Alphabet} {cap : UInt32} {t : Tree SymbolSet}

/-- A literal is a symbol of the alphabet. -/
def AlphabeticNode (a : Alphabet) : Tree SymbolSet → Prop
  | literal s => s ∈ a.full
  | _ => True

/-- The words of a tree are made of symbols of the alphabet: one case for each kind of node. -/
theorem madeOf_language (alphabetic : t.Everywhere (AlphabeticNode a)) :
    MadeOf (fun s => s ∈ a.full) (t.language a cap) := by
  induction t with
  | literal s =>
    have s_mem : s ∈ a.full := alphabetic.self
    intro w w_mem x x_mem
    unfold language at w_mem
    obtain rfl := Set.mem_singleton_iff.1 w_mem
    obtain rfl := List.mem_singleton.1 x_mem
    exact s_mem
  | wildcard | bracket _ _ | shorthand _ =>
    unfold language
    exact madeOf_oneSymbol fun x x_holds => x_holds.1
  | concat terms ih =>
    unfold language
    rw [languages_eq_map]
    apply madeOf_prod
    intro l l_mem
    obtain ⟨u, u_mem, rfl⟩ := List.mem_map.1 l_mem
    exact ih u u_mem (alphabetic.of_mem_children u_mem)
  | alternation branches ih =>
    unfold language
    rw [languages_eq_map]
    by_cases none_there : branches.isEmpty = true
    · rw [if_pos none_there]
      exact madeOf_one
    · rw [if_neg none_there]
      apply madeOf_sum
      intro l l_mem
      obtain ⟨u, u_mem, rfl⟩ := List.mem_map.1 l_mem
      exact ih u u_mem (alphabetic.of_mem_children u_mem)
  | group body capturing name ih =>
    unfold language
    exact ih (alphabetic.of_mem_children (List.mem_singleton_self body))
  | repetition body bounds greedy ih =>
    unfold language
    have body_made := ih (alphabetic.of_mem_children (List.mem_singleton_self body))
    exact body_made.timesBetween _ _
  | look _ _ _ | anchor _ =>
    unfold language
    exact madeOf_one

/-- So are the words before and after them, which are those of the body of a lookaround. -/
theorem madeOf_lookLanguage {side : Side} {term : Option (Tree SymbolSet)}
    (alphabetic : ∀ u, term = some u → u.Everywhere (AlphabeticNode a)) :
    MadeOf (fun s => s ∈ a.full) (lookLanguage a cap side term) := by
  unfold lookLanguage
  split
  · rename_i s body
    by_cases same : s = side
    · rw [if_pos same]
      have look_alphabetic := alphabetic (look s body false) rfl
      exact madeOf_language (look_alphabetic.of_mem_children (List.mem_singleton_self body))
    · rw [if_neg same]
      exact madeOf_one
  · exact madeOf_one

/-- Every symbol of a value is in the alphabet. -/
theorem generate_mem_full {σ : Type} [WordSource σ] {settings : Settings} {source : σ}
    {out : List Symbol} (lawful : a.Lawful) (canonical : t.Everywhere CanonicalBracket)
    (alphabetic : t.Everywhere (AlphabeticNode a))
    (generated : (t.generate a settings source).1 = .ok out) : ∀ s ∈ out, s ∈ a.full := by
  have terms_alphabetic : ∀ u ∈ t.uncovered.terms, u.Everywhere (AlphabeticNode a) :=
    fun u u_mem => alphabetic.uncovered.of_mem_terms u_mem
  obtain ⟨x, y, z, rfl, x_mem, y_mem, z_mem⟩ := generate_mem_language lawful canonical generated
  intro s s_mem
  rcases List.mem_append.1 s_mem with s_mem | s_mem
  · rcases List.mem_append.1 s_mem with s_mem | s_mem
    · have lead : MadeOf (fun s => s ∈ a.full) (t.leadLanguage a settings.repeatCap) :=
        madeOf_lookLanguage fun u first => terms_alphabetic u (List.mem_of_head? first)
      exact lead x x_mem s s_mem
    · exact madeOf_language alphabetic y y_mem s s_mem
  · have trail : MadeOf (fun s => s ∈ a.full) (t.trailLanguage a settings.repeatCap) :=
      madeOf_lookLanguage fun u last => terms_alphabetic u (List.mem_of_getLast? last)
    exact trail z z_mem s s_mem

end Tree

/-! ## Patterns -/

namespace Pattern

open Stored

section

variable [UnicodeClasses] {m : Mode} {q : Pattern m}

/-- The ways to come by a pattern. -/
inductive Obtained (q : Pattern m) : Prop where
  /-- It was compiled. -/
  | compiled {p : m.Value} (h : compile m p = .ok q) : Obtained q
  /-- It was loaded from its stored form, or from whatever bytes are taken for one. -/
  | loaded {bytes : List UInt8} (h : ofBytes m bytes = .ok q) : Obtained q

/-- However a pattern was obtained, its nodes are as the check asks. -/
theorem Obtained.everywhere (h : q.Obtained) : q.tree.Everywhere (CheckedNode m) := by
  cases h with
  | compiled h =>
    have normal := exists_compile_iff.1 ⟨_, h⟩
    exact checkTree_eq_ok_iff.1 (checkTree_of_normal normal)
  | loaded h => exact checkTree_eq_ok_iff.1 (checkTree_of_ofBytes h)

theorem canonicalBracket_of_checked {t : Tree SymbolSet} (h : CheckedNode m t) :
    t.CanonicalBracket := by
  cases t with
  | bracket content negated => exact h.2
  | _ => trivial

theorem alphabeticNode_of_checked {t : Tree SymbolSet} (h : CheckedNode m t) :
    t.AlphabeticNode m.alphabet := by
  cases t with
  | literal s => exact h
  | _ => trivial

/-- No symbol is lost between generating and encoding.

    Whatever the settings and the source are, the symbols that are generated from a pattern are
    in the alphabet, the value that is made of them has exactly these symbols, and it is the
    value that the caller gets. Splitting any value into its symbols and putting them together
    again gives the value. -/
theorem encode_generated (obtained : q.Obtained) :
    (∀ {σ : Type} [WordSource σ] settings (source : σ) out,
      (q.tree.generate m.alphabet settings source).1 = .ok out →
      (∀ s ∈ out, s ∈ m.alphabet.full) ∧ m.symbols (m.encode out) = out ∧
      (q.generateWith settings source).1 = .ok (m.encode out)) ∧
    ∀ value : m.Value, m.encode (m.symbols value) = value := by
  have checked := obtained.everywhere
  have canonical := checked.imp fun t => canonicalBracket_of_checked (t := t)
  have alphabetic := checked.imp fun t => alphabeticNode_of_checked (t := t)
  refine ⟨?_, Mode.encode_symbols⟩
  intro σ _ settings source out generated
  have in_full := Tree.generate_mem_full (Alphabet.lawful_mode m) canonical alphabetic generated
  refine ⟨in_full, Mode.symbols_encode in_full, ?_⟩
  show (q.tree.generate m.alphabet settings source).1.map m.encode = .ok (m.encode out)
  rw [generated]
  rfl

end

/-- The pattern `.` of text with a source that draws the first symbol after the gap of the
    surrogates. -/
theorem encode_generated_after_surrogates :
    let q : Pattern .text := ⟨.wildcard⟩
    let source : Source := ⟨fun _ => 213560170, 0⟩
    compile .text "." = .ok q ∧
      (q.tree.generate Mode.text.alphabet {} source).1 = .ok [0xE000] ∧
      (0xE000 : Symbol) ∈ Mode.text.alphabet.full ∧
      Mode.text.symbols (Mode.text.encode [0xE000]) = [0xE000] ∧
      (q.generateWith {} source).1 = .ok (Mode.text.encode [0xE000]) := by
  intro q source
  have compiled : compile .text "." = .ok q := by cbv
  have generated : (q.tree.generate Mode.text.alphabet {} source).1 = .ok [0xE000] := by
    decide +kernel
  obtain ⟨in_full, symbols_eq, value_eq⟩ :=
    (encode_generated (.compiled compiled)).1 {} source _ generated
  exact ⟨compiled, generated, in_full _ (List.mem_singleton_self _), symbols_eq, value_eq⟩

end Pattern

end PatternSampler
