import Mathlib.Data.List.Forall2
import PatternSampler.Generation.Run
import PatternSampler.Proofs.Tree.Everywhere

/-! # What generation does not look at

  Whether a repetition is greedy, whether a group captures and what it is called, anchors, and all
  lookarounds but the two that a plan writes out play no part in generation, and a repetition
  without a greatest number is as good as one with the greatest number that the cap allows.

  `ReducesWhole` says that one tree is another one without all this. It follows the plan: one
  uncapturing group around the pattern is looked through, and the terms inside are the ones of which
  the first and the last can be lookarounds to keep. Below the terms there is nothing to keep, and
  one relation is enough (`Reduces`).

  Below the terms both trees have the same script (`Reduces.script_eq`), and the plans write out the
  same terms (`ReducesFrom.scripts_eq`). Only a pattern that is an anchor by itself has another
  script than the empty concatenation, and both write nothing. So the two trees generate the same
  from the same draws (`generate_eq_of_reduces`).
-/

namespace PatternSampler.Tree

variable {β : Type}

/-! ## Reduced trees -/

/-- The second tree is the first one without what generation does not look at, if no lookaround of
    it is written out. Unbounded repetitions get the bound that the cap gives them. -/
inductive Reduces (cap : UInt32) : Tree β → Tree β → Prop where
  | literal (s : Symbol) : Reduces cap (.literal s) (.literal s)
  | wildcard : Reduces cap .wildcard .wildcard
  | bracket (content : β) (negated : Bool) :
    Reduces cap (.bracket content negated) (.bracket content negated)
  | shorthand (kind : Shorthand) : Reduces cap (.shorthand kind) (.shorthand kind)
  | concat {ts us : List (Tree β)} (each : List.Forall₂ (Reduces cap) ts us) :
    Reduces cap (.concat ts) (.concat us)
  | alternation {ts us : List (Tree β)} (each : List.Forall₂ (Reduces cap) ts us) :
    Reduces cap (.alternation ts) (.alternation us)
  /-- The name goes, and whether the group captures is left open. -/
  | group {body body' : Tree β} (capturing capturing' : Bool) (name : Option String)
    (inside : Reduces cap body body') :
    Reduces cap (.group body capturing name) (.group body' capturing' none)
  /-- The repetition becomes greedy and bounded. A bound that it has is kept. -/
  | repetition {body body' : Tree β} (bounds : Bounds) (greedy : Bool)
    (inside : Reduces cap body body') :
    Reduces cap (.repetition body bounds greedy)
      (.repetition body' ⟨bounds.least, some (bounds.upper cap)⟩ true)
  | look (side : Side) (body : Tree β) (negative : Bool) :
    Reduces cap (.look side body negative) (.concat [])
  | anchor (a : Anchor) : Reduces cap (.anchor a) (.concat [])

/-- The second list has the terms of the first one without what generation does not look at. The
    flag tells whether the lists start with the first term of the pattern. -/
inductive ReducesFrom (cap : UInt32) : Bool → List (Tree β) → List (Tree β) → Prop where
  | nil (first : Bool) : ReducesFrom cap first [] []
  /-- The lookbehind that opens the pattern stays. -/
  | lead {body body' : Tree β} {ts us : List (Tree β)} (inside : Reduces cap body body')
    (others : ReducesFrom cap false ts us) :
    ReducesFrom cap true (look .behind body false :: ts) (look .behind body' false :: us)
  /-- The lookahead that closes the pattern stays. -/
  | trail {body body' : Tree β} (first : Bool) (inside : Reduces cap body body') :
    ReducesFrom cap first [look .ahead body false] [look .ahead body' false]
  | term {t u : Tree β} {ts us : List (Tree β)} {first : Bool} (reduces : Reduces cap t u)
    (no_lead : first = true → t.looksTo .behind = false)
    (no_trail : ts = [] → t.looksTo .ahead = false) (others : ReducesFrom cap false ts us) :
    ReducesFrom cap first (t :: ts) (u :: us)

/-- The same for a pattern without a group around it. A single term is the first and the last. -/
inductive ReducesTop (cap : UInt32) : Tree β → Tree β → Prop where
  | concat {ts us : List (Tree β)} (terms : ReducesFrom cap true ts us) :
    ReducesTop cap (.concat ts) (.concat us)
  | single {t u : Tree β} (single : ∀ ts, t ≠ .concat ts) (term : ReducesFrom cap true [t] [u]) :
    ReducesTop cap t u

/-- The second tree is the first one without all that generation does not look at. A group at the
    root stays what it is, because the plan looks through it only if it does not capture. -/
inductive ReducesWhole (cap : UInt32) : Tree β → Tree β → Prop where
  | covered {body body' : Tree β} (name : Option String) (inside : ReducesTop cap body body') :
    ReducesWhole cap (.group body false name) (.group body' false none)
  | capturing {body body' : Tree β} (name : Option String) (inside : Reduces cap body body') :
    ReducesWhole cap (.group body true name) (.group body' true none)
  | bare {t u : Tree β} (no_group : ∀ body capturing name, t ≠ .group body capturing name)
    (top : ReducesTop cap t u) : ReducesWhole cap t u

variable {cap : UInt32} {t u : Tree β} {ts us : List (Tree β)}

/-! ## Every tree can be reduced -/

theorem exists_forall₂_reduces (each : ∀ t ∈ ts, ∃ u, Reduces cap t u) :
    ∃ us, List.Forall₂ (Reduces cap) ts us := by
  induction ts with
  | nil => exact ⟨[], .nil⟩
  | cons t ts ih =>
    rw [List.forall_mem_cons] at each
    obtain ⟨u, reduces⟩ := each.1
    obtain ⟨us, others⟩ := ih each.2
    exact ⟨u :: us, .cons reduces others⟩

theorem exists_reduces (cap : UInt32) (t : Tree β) : ∃ u, Reduces cap t u := by
  induction t with
  | literal s => exact ⟨_, .literal s⟩
  | wildcard => exact ⟨_, .wildcard⟩
  | bracket content negated => exact ⟨_, .bracket content negated⟩
  | shorthand kind => exact ⟨_, .shorthand kind⟩
  | concat terms ih =>
    obtain ⟨us, each⟩ := exists_forall₂_reduces ih
    exact ⟨_, .concat each⟩
  | alternation branches ih =>
    obtain ⟨us, each⟩ := exists_forall₂_reduces ih
    exact ⟨_, .alternation each⟩
  | group body capturing name ih =>
    obtain ⟨_, inside⟩ := ih
    exact ⟨_, .group capturing capturing name inside⟩
  | repetition body bounds greedy ih =>
    obtain ⟨_, inside⟩ := ih
    exact ⟨_, .repetition bounds greedy inside⟩
  | look side body negative _ => exact ⟨_, .look side body negative⟩
  | anchor a => exact ⟨_, .anchor a⟩

/-- A list of terms has a reduced one of the same length. -/
theorem exists_reducesFrom (cap : UInt32) (first : Bool) (ts : List (Tree β)) :
    ∃ us, ReducesFrom cap first ts us ∧ us.length = ts.length := by
  induction ts generalizing first with
  | nil => exact ⟨[], .nil first, rfl⟩
  | cons t ts ih =>
    obtain ⟨us, others, length_eq⟩ := ih false
    have length_succ : us.length + 1 = ts.length + 1 := congrArg (· + 1) length_eq
    by_cases lead : first = true ∧ t.looksTo .behind = true
    · obtain ⟨rfl, looks⟩ := lead
      obtain ⟨body, rfl⟩ := looksTo_eq_true_iff.1 looks
      obtain ⟨body', inside⟩ := exists_reduces cap body
      exact ⟨_, .lead inside others, length_succ⟩
    by_cases trail : ts = [] ∧ t.looksTo .ahead = true
    · obtain ⟨rfl, looks⟩ := trail
      obtain ⟨body, rfl⟩ := looksTo_eq_true_iff.1 looks
      obtain ⟨body', inside⟩ := exists_reduces cap body
      exact ⟨_, .trail first inside, rfl⟩
    · obtain ⟨u, reduces⟩ := exists_reduces cap t
      refine ⟨_, .term reduces ?_ ?_ others, length_succ⟩
      · intro is_first
        exact Bool.eq_false_iff.2 fun looks => lead ⟨is_first, looks⟩
      · intro is_last
        exact Bool.eq_false_iff.2 fun looks => trail ⟨is_last, looks⟩

theorem exists_reducesTop (cap : UInt32) (t : Tree β) : ∃ u, ReducesTop cap t u := by
  by_cases single : ∀ ts, t ≠ .concat ts
  · obtain ⟨us, terms, length_eq⟩ := exists_reducesFrom cap true [t]
    obtain ⟨u, rfl⟩ := List.length_eq_one_iff.1 length_eq
    exact ⟨u, .single single terms⟩
  · obtain ⟨ts, rfl⟩ := not_forall_not.1 single
    obtain ⟨us, terms, -⟩ := exists_reducesFrom cap true ts
    exact ⟨_, .concat terms⟩

theorem exists_reducesWhole (cap : UInt32) (t : Tree β) : ∃ u, ReducesWhole cap t u := by
  have bare : (∀ body capturing name, t ≠ .group body capturing name) →
      ∃ u, ReducesWhole cap t u := by
    intro no_group
    obtain ⟨u, top⟩ := exists_reducesTop cap t
    exact ⟨u, .bare no_group top⟩
  cases t with
  | group body capturing name =>
    cases capturing with
    | false =>
      obtain ⟨body', inside⟩ := exists_reducesTop cap body
      exact ⟨_, .covered name inside⟩
    | true =>
      obtain ⟨body', inside⟩ := exists_reduces cap body
      exact ⟨_, .capturing name inside⟩
  | _ => exact bare fun _ _ _ => nofun

/-! ## The terms that a plan writes out -/

/-- The terms with the body of the first in its place, if they start the pattern and it is a
    lookbehind, and with that of the last in its place, if it is a lookahead. -/
def writtenFrom : Bool → List (Tree β) → List (Tree β)
  | _, [] => []
  | first, t :: ts =>
    (if (first && t.looksTo .behind) || (ts.isEmpty && t.looksTo .ahead) then t.lookBody else t) ::
      writtenFrom false ts

theorem writtenFrom_lead (body : Tree β) (ts : List (Tree β)) :
    writtenFrom true (look .behind body false :: ts) = body :: writtenFrom false ts := rfl

theorem writtenFrom_trail (first : Bool) (body : Tree β) :
    writtenFrom first [look .ahead body false] = [body] := by
  cases first <;> rfl

/-- After the first term only the last one is opened. -/
theorem writtenFrom_false (ts : List (Tree β)) :
    writtenFrom false ts =
      if ts.getLast?.any (looksTo .ahead) then ts.modify (ts.length - 1) lookBody else ts := by
  induction ts with
  | nil => rfl
  | cons t ts ih =>
    unfold writtenFrom
    rw [ih]
    cases ts with
    | nil => cases looks : t.looksTo .ahead <;> simp [looks]
    | cons s ts =>
      simp only [Bool.false_and, List.isEmpty_cons, Bool.or_self, Bool.false_eq_true, if_false,
        List.getLast?_cons_cons, List.length_cons, Nat.add_sub_cancel]
      split <;> rfl

/-- A plan writes out the terms from the first one on. -/
theorem written_eq_writtenFrom (t : Tree β) :
    (Plan.ofTree t).written = writtenFrom true t.uncovered.terms := by
  unfold Plan.ofTree Plan.written
  generalize t.uncovered.terms = ts
  match ts with
  | [] => rfl
  | [t] =>
    -- the only term cannot look both ways
    by_cases lead : t.looksTo .behind = true
    · obtain ⟨body, rfl⟩ := looksTo_eq_true_iff.1 lead
      rfl
    · cases trail : t.looksTo .ahead <;> simp [writtenFrom, lead, trail]
  | t :: s :: ts =>
    unfold writtenFrom
    rw [writtenFrom_false]
    simp only [List.head?_cons, Option.any_some, List.getLast?_cons_cons, List.length_cons,
      Nat.add_sub_cancel, Bool.true_and, List.isEmpty_cons, Bool.false_and, Bool.or_false]
    by_cases lead : t.looksTo .behind = true
    · simp only [lead, if_true]
      split <;> rfl
    · simp only [lead, if_false, Bool.false_eq_true]
      split <;> rfl

/-! ## The same script -/

section Script

variable {a : Alphabet} {cap other : UInt32} {t u : Tree SymbolSet} {ts us : List (Tree SymbolSet)}
  {first : Bool}

theorem map_script_eq (each : List.Forall₂ (Reduces cap) ts us)
    (same : ∀ t ∈ ts, ∀ u, Reduces cap t u → u.script a other = t.script a cap) :
    us.map (script a other) = ts.map (script a cap) := by
  induction each with
  | nil => rfl
  | cons reduces _ ih =>
    rw [List.forall_mem_cons] at same
    rw [List.map_cons, List.map_cons, same.1 _ reduces, ih same.2]

/-- Below the terms of a pattern, a reduced tree has the script of the tree, under any cap. -/
theorem Reduces.script_eq (reduces : Reduces cap t u) : u.script a other = t.script a cap := by
  induction t generalizing u with
  | literal _ | wildcard | bracket _ _ | shorthand _ | anchor _ | look _ _ _ _ =>
    cases reduces
    rfl
  | concat ts ih =>
    cases reduces with
    | concat each => simp only [script, scripts_eq_map, map_script_eq each fun t mem _ => ih t mem]
  | alternation ts ih =>
    cases reduces with
    | alternation each =>
      simp only [script, scripts_eq_map, map_script_eq each fun t mem _ => ih t mem]
  | group body capturing name ih =>
    cases reduces with
    | group _ _ _ inside => simp only [script, ih inside]
  | repetition body bounds greedy ih =>
    cases reduces with
    | repetition _ _ inside =>
      -- the bound that was filled in is the one that the cap gives
      simp only [script, ih inside]
      rfl

/-- Nothing is a lookaround after it is reduced. -/
theorem Reduces.looksTo_eq_false {side : Side} (reduces : Reduces cap t u) :
    u.looksTo side = false := by
  cases reduces <;> rfl

/-- The terms that are written out have the same scripts. -/
theorem ReducesFrom.scripts_eq (reduces : ReducesFrom cap first ts us) :
    (writtenFrom first us).map (script a other) = (writtenFrom first ts).map (script a cap) := by
  induction reduces with
  | nil first => rfl
  | lead inside others ih =>
    rw [writtenFrom_lead, writtenFrom_lead, List.map_cons, List.map_cons, inside.script_eq, ih]
  | trail first inside =>
    rw [writtenFrom_trail, writtenFrom_trail, List.map_singleton, List.map_singleton,
      inside.script_eq]
  | @term t u ts us first reduces no_lead no_trail others ih =>
    have stays : ((first && t.looksTo .behind) || (ts.isEmpty && t.looksTo .ahead)) = false := by
      rw [Bool.or_eq_false_iff, Bool.and_eq_false_imp, Bool.and_eq_false_imp]
      exact ⟨no_lead, fun empty => no_trail (List.isEmpty_iff.1 empty)⟩
    unfold writtenFrom
    simp only [stays, reduces.looksTo_eq_false, Bool.and_false, Bool.or_self, Bool.false_eq_true,
      if_false, List.map_cons, reduces.script_eq, ih]

/-! ## The same value -/

/-- A plan looks through nothing but a group that does not capture. -/
theorem uncovered_eq_self (no_cover : ∀ body name, t ≠ .group body false name) :
    t.uncovered = t := by
  unfold uncovered
  split
  · exact absurd rfl (no_cover _ _)
  · rfl

/-- A tree that is no group is reduced to none. -/
theorem ReducesTop.uncovered_eq (no_group : ∀ body capturing name, t ≠ .group body capturing name)
    (top : ReducesTop cap t u) : u.uncovered = u := by
  cases top with
  | concat _ => rfl
  | single _ term =>
    cases term with
    | lead _ _ | trail _ _ => rfl
    | term reduces _ _ _ =>
      cases reduces with
      | group capturing _ name _ => exact absurd rfl (no_group _ capturing name)
      | _ => rfl

/-- A group around both trees is looked through in both or in none of them. -/
theorem ReducesWhole.uncovered (whole : ReducesWhole cap t u) :
    ReducesTop cap t.uncovered u.uncovered := by
  cases whole with
  | covered name inside => exact inside
  | @capturing body body' name inside =>
    have group : Reduces cap (.group body true name) (.group body' true none) :=
      .group true true name inside
    exact .single (fun _ => nofun) (.term group (fun _ => rfl) (fun _ => rfl) (.nil false))
  | bare no_group top =>
    rw [uncovered_eq_self fun body name => no_group body false name, top.uncovered_eq no_group]
    exact top

/-- A term by itself is reduced to a term or to an empty concatenation. -/
theorem ReducesFrom.terms_eq_or (single : ∀ ts, t ≠ .concat ts)
    (term : ReducesFrom cap first [t] [u]) : u.terms = [u] ∨ u = .concat [] := by
  cases term with
  | lead _ _ | trail _ _ => exact .inl rfl
  | term reduces _ _ _ =>
    -- only what writes nothing becomes an empty concatenation
    cases reduces with
    | concat _ => exact absurd rfl (single _)
    | look _ _ _ | anchor _ => exact .inr rfl
    | _ => exact .inl rfl

/-- Writing the terms of a tree in the order of the plan. -/
def termsScript (a : Alphabet) (cap : UInt32) (t : Tree SymbolSet) : Script :=
  .sequence ((writtenFrom true t.terms).map (script a cap))

theorem generate_eq_termsScript {σ : Type} [WordSource σ] (settings : Settings) (source : σ) :
    t.generate a settings source = (t.uncovered.termsScript a settings.repeatCap).generate
      (some settings.expansionLimit.toNat) source := by
  unfold generate wholeScript termsScript
  rw [scripts_eq_map, written_eq_writtenFrom]

/-- An empty concatenation writes nothing, as the only term and without terms. -/
theorem perform_nothing {σ : Type} [WordSource σ] (limit : Option Nat) :
    (Script.perform limit (.sequence []) : Action σ Unit) =
      Script.perform limit (.sequence [.sequence []]) := by
  simp only [Script.perform, Script.performAll, pure_bind]

theorem ReducesTop.perform_eq {σ : Type} [WordSource σ] (top : ReducesTop cap t u)
    (limit : Option Nat) : ((u.termsScript a other).perform limit : Action σ Unit) =
      (t.termsScript a cap).perform limit := by
  unfold termsScript
  cases top with
  | concat terms =>
    exact congrArg (fun scripts => Script.perform limit (.sequence scripts)) terms.scripts_eq
  | single single term =>
    have terms_eq : t.terms = [t] := by
      cases t with
      | concat ts => exact absurd rfl (single ts)
      | _ => rfl
    have scripts_eq : (writtenFrom true [u]).map (script a other) =
        (writtenFrom true [t]).map (script a cap) := term.scripts_eq
    rw [terms_eq, ← scripts_eq]
    rcases term.terms_eq_or single with same | rfl
    · rw [same]
    · -- an anchor or a lookaround was the whole pattern, and there is no term now
      exact perform_nothing limit

/-- Generation does not see what is ignored. Every tree can be reduced, and however that is done,
    the reduced tree generates under any cap what the tree generates under the given one: over every
    alphabet, with every limit and from every state of the source the symbols or the failure are the
    same, and so is the state of the source after it. One group that does not capture can be put
    around any tree that is no such group itself. -/
theorem generate_eq_of_reduces (t : Tree SymbolSet) (settings : Settings) :
    (∃ u, ReducesWhole settings.repeatCap t u) ∧
    (∀ u, ReducesWhole settings.repeatCap t u →
      ∀ {σ : Type} [WordSource σ] (other : UInt32) (a : Alphabet) (source : σ),
      u.generate a { settings with repeatCap := other } source = t.generate a settings source) ∧
    ((∀ body name, t ≠ .group body false name) →
      ∀ {σ : Type} [WordSource σ] name (a : Alphabet) (source : σ),
      (Tree.group t false name).generate a settings source = t.generate a settings source) := by
  refine ⟨exists_reducesWhole settings.repeatCap t, ?_, ?_⟩
  · intro u whole σ _ other a source
    rw [generate_eq_termsScript, generate_eq_termsScript]
    unfold Script.generate
    rw [whole.uncovered.perform_eq]
  · intro no_cover σ _ name a source
    have covered_eq : (Tree.group t false name).uncovered = t.uncovered :=
      (uncovered_eq_self no_cover).symm
    rw [generate_eq_termsScript, generate_eq_termsScript, covered_eq]

/-- The pattern `(?:(?<=x)(?P<n>a|b$)+?(?!c)(?=y))` without its name, its lazy mark, its anchor and
    the lookahead in it that nothing is written for, with another group and with a greatest number:
    what is left generates the same under a cap of zero. The pattern that is one anchor generates
    the same in a group. -/
theorem generate_eq_of_reduces_lookarounds :
    let opening : Tree SymbolSet := .look .behind (.literal 120) false
    let closing : Tree SymbolSet := .look .ahead (.literal 121) false
    let t : Tree SymbolSet := .group (.concat [opening,
      .repetition (.group (.alternation [.literal 97, .concat [.literal 98, .anchor .finish]])
        true (some "n")) ⟨1, none⟩ false,
      .look .ahead (.literal 99) true, closing]) false none
    let u : Tree SymbolSet := .group (.concat [opening,
      .repetition (.group (.alternation [.literal 97, .concat [.literal 98, .concat []]])
        false none) ⟨1, some 11⟩ true,
      .concat [], closing]) false none
    let settings : Settings := {}
    let source : Source := ⟨fun _ => 0, 0⟩
    ReducesWhole settings.repeatCap t u ∧
      (t.generate .bytes settings source).1 = .ok [120, 97, 121] ∧
      u.generate .bytes { settings with repeatCap := 0 } source =
        t.generate .bytes settings source ∧
      (∀ body name, (.anchor .start : Tree SymbolSet) ≠ .group body false name) ∧
      (Tree.group (.anchor .start) false none).generate .bytes settings source =
        (Tree.anchor .start).generate .bytes settings source := by
  intro opening closing t u settings source
  have branches : List.Forall₂ (Reduces settings.repeatCap)
      [(.literal 97 : Tree SymbolSet), .concat [.literal 98, .anchor .finish]]
      [.literal 97, .concat [.literal 98, .concat []]] :=
    .cons (.literal 97) (.cons (.concat (.cons (.literal 98) (.cons (.anchor .finish) .nil))) .nil)
  have repeated : Reduces settings.repeatCap
      (.repetition (.group (.alternation [.literal 97, .concat [.literal 98, .anchor .finish]])
        true (some "n")) ⟨1, none⟩ false)
      (.repetition (.group (.alternation [.literal 97, .concat [.literal 98, .concat []]])
        false none) ⟨1, some 11⟩ true) :=
    .repetition ⟨1, none⟩ false (.group true false (some "n") (.alternation branches))
  have left_out : Reduces settings.repeatCap (.look .ahead (.literal 99) true : Tree SymbolSet)
      (.concat []) := .look .ahead (.literal 99) true
  have reduces : ReducesWhole settings.repeatCap t u :=
    .covered none (.concat (.lead (.literal 120) (.term repeated nofun (fun _ => rfl)
      (.term left_out nofun (fun _ => rfl) (.trail false (.literal 121))))))
  have no_group : ∀ body name, (.anchor .start : Tree SymbolSet) ≠ .group body false name :=
    fun _ _ => nofun
  obtain ⟨-, same, -⟩ := generate_eq_of_reduces t settings
  obtain ⟨-, -, grouped⟩ := generate_eq_of_reduces (.anchor .start) settings
  exact ⟨reduces, by decide +kernel, same u reduces 0 .bytes source, no_group,
    grouped no_group none .bytes source⟩

end Script

end PatternSampler.Tree
