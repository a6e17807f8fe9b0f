import PatternSampler.Generation.Plan

/-! # Conditions on all parts of a tree

  `Tree.Everywhere P t` says that `P` holds for `t` and for each of its parts, at every depth.
  Conditions on single nodes, given as a match without recursion, become conditions on whole
  trees in this way.

  Trees are proved about with `induction`, which treats the trees of a list as parts with a
  hypothesis of their own (`Tree.induct`). Where the kind of a node plays no role, it is enough
  to speak of its `children` (`induct_children`, `everywhere_iff`).
-/

namespace PatternSampler.Tree

variable {β γ : Type}

/-! ## Induction -/

/-- Induction over trees, with a hypothesis for each tree of a list. -/
@[induction_eliminator]
theorem induct {motive : Tree β → Prop}
    (literal : ∀ symbol, motive (literal symbol))
    (wildcard : motive wildcard)
    (bracket : ∀ content negated, motive (bracket content negated))
    (shorthand : ∀ kind, motive (shorthand kind))
    (concat : ∀ terms, (∀ t ∈ terms, motive t) → motive (concat terms))
    (alternation : ∀ branches, (∀ t ∈ branches, motive t) → motive (alternation branches))
    (group : ∀ body capturing name, motive body → motive (group body capturing name))
    (repetition : ∀ body bounds greedy, motive body → motive (repetition body bounds greedy))
    (look : ∀ side body negative, motive body → motive (look side body negative))
    (anchor : ∀ a, motive (anchor a)) (t : Tree β) : motive t :=
  @Tree.rec β motive (fun ts => ∀ t ∈ ts, motive t)
    literal wildcard bracket shorthand concat alternation group repetition look anchor
    (fun _ h => nomatch h)
    (fun _ _ of_head of_rest t h => by
      rcases List.mem_cons.1 h with rfl | h
      · exact of_head
      · exact of_rest t h)
    t

/-! ## Parts -/

/-- The parts that a tree is made of directly. -/
def children : Tree β → List (Tree β)
  | concat terms => terms
  | alternation branches => branches
  | group body _ _ => [body]
  | repetition body _ _ => [body]
  | look _ body _ => [body]
  | _ => []

/-- Induction over the parts, for what does not depend on the kind of a node. -/
theorem induct_children {motive : Tree β → Prop}
    (step : ∀ t, (∀ u ∈ t.children, motive u) → motive t) (t : Tree β) : motive t := by
  induction t with
  | literal _ | wildcard | bracket _ _ | shorthand _ | anchor _ => exact step _ fun _ => nofun
  | concat terms ih => exact step (concat terms) ih
  | alternation branches ih => exact step (alternation branches) ih
  | group body _ _ ih | repetition body _ _ ih | look _ body _ ih =>
    refine step _ fun u mem => ?_
    obtain rfl := List.mem_singleton.1 mem
    exact ih

theorem children_map (f : Bool → β → γ) (t : Tree β) :
    (t.map f).children = t.children.map (Tree.map f) := by
  cases t <;> simp [Tree.map, children]

/-- The branches of an alternation; any other tree is its only branch. -/
def branches : Tree β → List (Tree β)
  | alternation branches => branches
  | t => [t]

/-! ## Everywhere -/

mutual

/-- A condition holds for a tree and for all its parts. -/
def Everywhere (P : Tree β → Prop) : Tree β → Prop
  | concat terms => P (concat terms) ∧ EverywhereIn P terms
  | alternation branches => P (alternation branches) ∧ EverywhereIn P branches
  | group body capturing name => P (group body capturing name) ∧ Everywhere P body
  | repetition body bounds greedy => P (repetition body bounds greedy) ∧ Everywhere P body
  | look side body negative => P (look side body negative) ∧ Everywhere P body
  | t => P t

/-- A condition holds everywhere in each tree of a list. -/
def EverywhereIn (P : Tree β → Prop) : List (Tree β) → Prop
  | [] => True
  | t :: ts => Everywhere P t ∧ EverywhereIn P ts

end

variable {P Q : Tree β → Prop}

@[simp] theorem everywhereIn_iff {ts : List (Tree β)} :
    EverywhereIn P ts ↔ ∀ t ∈ ts, Everywhere P t := by
  induction ts with
  | nil => simp [EverywhereIn]
  | cons t ts ih => simp [EverywhereIn, ih]

/-- The same for all kinds of nodes: the condition holds for the tree and everywhere in its
    parts. -/
theorem everywhere_iff {t : Tree β} :
    t.Everywhere P ↔ P t ∧ ∀ u ∈ t.children, u.Everywhere P := by
  cases t <;> simp [Everywhere, children]

theorem Everywhere.self {t : Tree β} (h : t.Everywhere P) : P t := (everywhere_iff.1 h).1

theorem Everywhere.of_mem_children {t u : Tree β} (h : t.Everywhere P) (mem : u ∈ t.children) :
    u.Everywhere P := (everywhere_iff.1 h).2 u mem

theorem Everywhere.imp {t : Tree β} (h : t.Everywhere P) (imp : ∀ t, P t → Q t) :
    t.Everywhere Q := by
  induction t using induct_children with
  | step t ih =>
    rw [everywhere_iff]
    exact ⟨imp t h.self, fun u mem => ih u mem (h.of_mem_children mem)⟩

theorem Everywhere.and {t : Tree β} (h : t.Everywhere P) (h' : t.Everywhere Q) :
    t.Everywhere fun u => P u ∧ Q u := by
  induction t using induct_children with
  | step t ih =>
    rw [everywhere_iff]
    refine ⟨⟨h.self, h'.self⟩, fun u mem => ?_⟩
    exact ih u mem (h.of_mem_children mem) (h'.of_mem_children mem)

/-- A condition that carries over from each node of a tree to the node it is mapped to carries
    over to the whole tree. -/
theorem Everywhere.map {Q : Tree γ → Prop} {f : Bool → β → γ} {t : Tree β}
    (h : t.Everywhere P) (carries : ∀ t, P t → Q (t.map f)) : (t.map f).Everywhere Q := by
  induction t using induct_children with
  | step t ih =>
    rw [everywhere_iff, children_map, List.forall_mem_map]
    exact ⟨carries t h.self, fun u mem => ih u mem (h.of_mem_children mem)⟩

/-- Contents that are replaced and put back leave the tree as it was. -/
theorem Everywhere.map_map_eq_self {f : Bool → β → γ} {g : Bool → γ → β} {t : Tree β}
    (h : t.Everywhere P)
    (restores : ∀ content negated, P (bracket content negated) →
      g negated (f negated content) = content) : (t.map f).map g = t := by
  have in_list : ∀ ts : List (Tree β), (∀ u ∈ ts, (u.map f).map g = u) →
      (ts.map (Tree.map f)).map (Tree.map g) = ts := by
    intro ts each
    rw [List.map_map]
    exact (List.map_congr_left each).trans (List.map_id ts)
  induction t with
  | literal _ | wildcard | shorthand _ | anchor _ => simp [Tree.map]
  | bracket content negated => simp [Tree.map, restores content negated h.self]
  | concat terms ih =>
    have terms_eq := in_list terms fun u mem => ih u mem (h.of_mem_children mem)
    simp only [Tree.map, mapList_eq_map, terms_eq]
  | alternation branches ih =>
    have branches_eq := in_list branches fun u mem => ih u mem (h.of_mem_children mem)
    simp only [Tree.map, mapList_eq_map, branches_eq]
  | group body _ _ ih | repetition body _ _ ih | look _ body _ ih =>
    simp only [Tree.map, ih (h.of_mem_children (List.mem_singleton_self body))]

/-- Contents that are replaced alike give the same tree. -/
theorem Everywhere.map_congr {f g : Bool → β → γ} {t : Tree β} (h : t.Everywhere P)
    (alike : ∀ content negated, P (bracket content negated) →
      f negated content = g negated content) : t.map f = t.map g := by
  induction t with
  | literal _ | wildcard | shorthand _ | anchor _ => simp only [Tree.map]
  | bracket content negated => simp only [Tree.map, alike content negated h.self]
  | concat terms ih =>
    have terms_eq : terms.map (Tree.map f) = terms.map (Tree.map g) :=
      List.map_congr_left fun u mem => ih u mem (h.of_mem_children mem)
    simp only [Tree.map, mapList_eq_map, terms_eq]
  | alternation branches ih =>
    have branches_eq : branches.map (Tree.map f) = branches.map (Tree.map g) :=
      List.map_congr_left fun u mem => ih u mem (h.of_mem_children mem)
    simp only [Tree.map, mapList_eq_map, branches_eq]
  | group body _ _ ih | repetition body _ _ ih | look _ body _ ih =>
    simp only [Tree.map, ih (h.of_mem_children (List.mem_singleton_self body))]

theorem Everywhere.lookBody {t : Tree β} (h : t.Everywhere P) : t.lookBody.Everywhere P := by
  unfold Tree.lookBody
  split
  · exact h.of_mem_children (List.mem_singleton_self _)
  · exact h

theorem Everywhere.uncovered {t : Tree β} (h : t.Everywhere P) : t.uncovered.Everywhere P := by
  unfold Tree.uncovered
  split
  · exact h.of_mem_children (List.mem_singleton_self _)
  · exact h

theorem Everywhere.of_mem_terms {t u : Tree β} (h : t.Everywhere P) (mem : u ∈ t.terms) :
    u.Everywhere P := by
  unfold terms at mem
  split at mem
  · exact h.of_mem_children mem
  · obtain rfl := List.mem_singleton.1 mem
    exact h

theorem Everywhere.of_mem_branches {t u : Tree β} (h : t.Everywhere P) (mem : u ∈ t.branches) :
    u.Everywhere P := by
  unfold branches at mem
  split at mem
  · exact h.of_mem_children mem
  · obtain rfl := List.mem_singleton.1 mem
    exact h

/-! ## What a plan writes -/

/-- What a plan marks is a lookaround to that side that is not negative. -/
theorem looksTo_eq_true_iff {side : Side} {t : Tree β} :
    t.looksTo side = true ↔ ∃ body, t = look side body false := by
  constructor
  · intro looks
    unfold looksTo at looks
    split at looks
    · obtain rfl := of_decide_eq_true looks
      exact ⟨_, rfl⟩
    · cases looks
  · rintro ⟨body, rfl⟩
    exact decide_eq_true rfl

theorem Everywhere.of_mem_modify {ts : List (Tree β)} {u : Tree β} {n : Nat}
    (all : ∀ t ∈ ts, t.Everywhere P) (mem : u ∈ ts.modify n Tree.lookBody) : u.Everywhere P := by
  obtain ⟨k, _, rfl⟩ := List.mem_iff_getElem.1 mem
  rw [List.getElem_modify]
  split
  · exact (all _ (List.getElem_mem _)).lookBody
  · exact all _ (List.getElem_mem _)

/-- What is written is made of parts of the tree, so a condition on all of these goes over to
    it. -/
theorem Everywhere.of_mem_written {t u : Tree β} (h : t.Everywhere P)
    (mem : u ∈ (Plan.ofTree t).written) : u.Everywhere P := by
  have all_terms : ∀ v ∈ t.uncovered.terms, v.Everywhere P :=
    fun v v_mem => h.uncovered.of_mem_terms v_mem
  have all_opened : ∀ v ∈ (if t.uncovered.terms.head?.any (looksTo .behind)
      then t.uncovered.terms.modify 0 Tree.lookBody else t.uncovered.terms),
      v.Everywhere P := by
    intro v v_mem
    split at v_mem
    · exact .of_mem_modify all_terms v_mem
    · exact all_terms v v_mem
  unfold Plan.written Plan.ofTree at mem
  by_cases trail : t.uncovered.terms.getLast?.any (looksTo .ahead)
  · simp only [trail, if_true] at mem
    exact .of_mem_modify all_opened mem
  · simp only [trail, if_false, Bool.false_eq_true] at mem
    exact all_opened u mem

end PatternSampler.Tree
