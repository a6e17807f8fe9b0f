import PatternSampler.Proofs.Notation.Image
import PatternSampler.Proofs.Notation.Writing

/-! # Reading what was written

  Reading a written draft gives it back, if the draft is normal (`read_write`).

  The induction is on the draft. What it carries is how a run goes on: a run at the place where
  a term is written leads to the place after it, with the term added to the level under way.
-/

namespace PatternSampler.Notation

open Progress

/-! ## Terms -/

/-- A term is read back with whatever `quantify` makes of it and of what follows. -/
def ReadsWith (t : Draft) : Prop :=
  ∀ groups level position rest term stop,
    quantify t ⟨position + (write t).length, rest⟩ = .ok (term, stop) →
    run ⟨groups, level, ⟨position, write t ++ rest⟩⟩ = run ⟨groups, level.add term, stop⟩

/-- A term is read back where no quantifier follows. -/
def Reads (t : Draft) : Prop :=
  ∀ groups level position rest, Quiet rest →
    run ⟨groups, level, ⟨position, write t ++ rest⟩⟩ =
      run ⟨groups, level.add t, ⟨position + (write t).length, rest⟩⟩

theorem ReadsWith.reads {t : Draft} (h : ReadsWith t) : Reads t := by
  intro groups level position rest quiet
  exact h groups level position rest _ _ (quantify_of_quiet quiet)

theorem readsWith_of_leaf {t : Draft} (leaf : t.IsLeaf)
    (normal : WritableNode t) : ReadsWith t := by
  intro groups level position rest term stop quantified
  exact run_eq_of_onward (.term (readPiece_write_leaf leaf normal) quantified)

/-- A repetition is its body with a quantifier. -/
theorem reads_repetition {body : Draft} {bounds : Bounds} {greedy : Bool}
    (quantifiable : body.IsQuantifiable) (consistent : bounds.Consistent)
    (body_reads : ReadsWith body) : Reads (.repetition body bounds greedy) := by
  have can_repeat : repeatable body = true := by
    cases body with
    | anchor _ => cases quantifiable
    | _ => rfl
  intro groups level position rest quiet
  unfold write
  rw [List.append_assoc, List.length_append, ← Nat.add_assoc]
  exact body_reads groups level position _ _ _
    (quantify_writeQuantifier greedy can_repeat consistent quiet)

/-! ## Levels -/

section

variable {groups : List OpenGroup} {position : Nat} {rest : List Symbol}

/-- Terms in a row are added to the level under way. -/
theorem run_writeAll {ts : List Draft} (reads : ∀ t ∈ ts, Reads t)
    (are_terms : ∀ t ∈ ts, t.IsTerm)
    (normal : ∀ t ∈ ts, t.Everywhere WritableNode) (quiet : Quiet rest)
    (level : Level) :
    run ⟨groups, level, ⟨position, writeAll ts ++ rest⟩⟩ =
      run ⟨groups, ⟨level.branches, ts.reverse ++ level.terms⟩,
        ⟨position + (writeAll ts).length, rest⟩⟩ := by
  induction ts generalizing level position with
  | nil =>
    simp [writeAll]
  | cons t ts ih =>
    have others_terms : ∀ u ∈ ts, u.IsTerm :=
      fun u u_mem => are_terms u (List.mem_cons_of_mem t u_mem)
    have others_normal : ∀ u ∈ ts, u.Everywhere WritableNode :=
      fun u u_mem => normal u (List.mem_cons_of_mem t u_mem)
    have first := reads t (by simp) groups level position (writeAll ts ++ rest)
      (quiet_writeAll others_terms others_normal quiet)
    -- the first term ends where the others begin, and none of these starts like a quantifier
    unfold writeAll
    rw [List.append_assoc, first, ih (fun u u_mem => reads u (List.mem_cons_of_mem t u_mem))
      others_terms others_normal]
    simp [Level.add, Nat.add_assoc]

/-- What a branch needs to be read back: all its terms are. -/
structure BranchReads (b : Draft) : Prop where
  /-- It is a branch. -/
  is_branch : b.IsBranch
  /-- Its nodes are normal. -/
  normal : b.Everywhere WritableNode
  /-- Its terms are read back. -/
  reads : ∀ t ∈ b.terms, Reads t

theorem write_eq_writeAll {b : Draft} (is_branch : b.IsBranch) : write b = writeAll b.terms := by
  cases b with
  | alternation _ => cases is_branch
  | concat terms => rw [write, Tree.terms]
  | _ => simp [Tree.terms, writeAll]

theorem write_eq_writeBranches (d : Draft) : write d = writeBranches d.branches := by
  cases d with
  | alternation branches => rw [write, Tree.branches]
  | _ => simp [Tree.branches, writeBranches]

/-- The terms of a branch are what has been read of the level after its last bar. -/
theorem run_branch {b : Draft} (h : BranchReads b) (quiet : Quiet rest)
    (before : List Draft) :
    run ⟨groups, ⟨before, []⟩, ⟨position, write b ++ rest⟩⟩ =
      run ⟨groups, ⟨before, b.terms.reverse⟩, ⟨position + (write b).length, rest⟩⟩ := by
  have terms_normal : ∀ t ∈ b.terms, t.Everywhere WritableNode :=
    fun t t_mem => h.normal.of_mem_terms t_mem
  have are_terms : ∀ t ∈ b.terms, t.IsTerm :=
    fun t t_mem => Tree.isTerm_of_mem_terms h.normal.self h.is_branch t_mem
  rw [write_eq_writeAll h.is_branch, run_writeAll h.reads are_terms terms_normal quiet,
    List.append_nil]

theorem branch_terms {b : Draft} (h : BranchReads b) (before : List Draft) :
    Level.branch ⟨before, b.terms.reverse⟩ = b := by
  unfold Level.branch
  rw [List.reverse_reverse]
  exact Tree.ofTerms_terms h.normal.self

/-- A bar ends the branch under way. -/
theorem run_bar {b : Draft} (h : BranchReads b) (before : List Draft) :
    run ⟨groups, ⟨before, b.terms.reverse⟩, ⟨position, .ofChar '|' :: rest⟩⟩ =
      run ⟨groups, ⟨b :: before, []⟩, ⟨position + 1, rest⟩⟩ := by
  rw [run_eq_of_onward (.bar readPiece_bar), Level.split, branch_terms h before]

/-- Branches with bars between them are read to a level that holds them, after those that it
    had before. -/
theorem run_writeBranches {bs : List Draft} (not_empty : bs ≠ [])
    (reads : ∀ b ∈ bs, BranchReads b) (quiet : Quiet rest) (groups : List OpenGroup)
    (position : Nat) (before : List Draft) :
    ∃ level, level.tree = .ofBranches (before.reverse ++ bs) ∧
      run ⟨groups, ⟨before, []⟩, ⟨position, writeBranches bs ++ rest⟩⟩ =
        run ⟨groups, level, ⟨position + (writeBranches bs).length, rest⟩⟩ := by
  induction bs generalizing before position with
  | nil => exact absurd rfl not_empty
  | cons b bs ih =>
    have b_reads := reads b (by simp)
    cases bs with
    | nil =>
      refine ⟨⟨before, b.terms.reverse⟩, ?_, run_branch b_reads quiet before⟩
      unfold Level.tree
      rw [branch_terms b_reads, List.reverse_cons]
    | cons next bs =>
      obtain ⟨level, tree_eq, others⟩ := ih (by simp)
        (fun c c_mem => reads c (List.mem_cons_of_mem b c_mem))
        (position + (write b).length + 1) (b :: before)
      refine ⟨level, ?_, ?_⟩
      · rw [tree_eq, List.reverse_cons, List.append_assoc, List.singleton_append]
      · -- the branch, the bar after it, and the others
        have no_mark : Quiet (.ofChar '|' :: (writeBranches (next :: bs) ++ rest)) :=
          quiet_cons (by decide)
        rw [writeBranches_cons_cons, List.append_assoc, List.cons_append,
          run_branch b_reads no_mark before, run_bar b_reads before, others]
        simp only [List.length_append, List.length_cons]
        congr 3
        omega

/-! ## Whole drafts -/

/-- What the induction on drafts carries: a draft that a quantifier can stand after is read
    back with the quantifier, and all terms of its branches are read back. -/
structure DraftReads (d : Draft) : Prop where
  /-- Its nodes are normal. -/
  normal : d.Everywhere WritableNode
  /-- As a term it is read back with what follows. -/
  with_quantifier : d.IsQuantifiable → ReadsWith d
  /-- The terms at its top are read back. -/
  terms : ∀ b ∈ d.branches, ∀ t ∈ b.terms, Reads t

theorem DraftReads.branches {d : Draft} (h : DraftReads d) :
    ∀ b ∈ d.branches, BranchReads b := fun b b_mem =>
  ⟨Tree.isBranch_of_mem_branches h.normal.self b_mem, h.normal.of_mem_branches b_mem,
    h.terms b b_mem⟩

/-- A term is the only term at its own top. -/
theorem draftReads_of_term {t : Draft} (is_term : t.IsTerm)
    (normal : t.Everywhere WritableNode)
    (with_quantifier : t.IsQuantifiable → ReadsWith t) (reads : Reads t) :
    DraftReads t := by
  refine ⟨normal, with_quantifier, ?_⟩
  rw [is_term.isBranch.branches_eq]
  intro b b_mem
  obtain rfl := List.mem_singleton.1 b_mem
  rw [is_term.terms_eq]
  intro u u_mem
  obtain rfl := List.mem_singleton.1 u_mem
  exact reads

/-- What is written for a whole draft is read to a level that holds the draft. -/
theorem run_write {d : Draft} (h : DraftReads d) (quiet : Quiet rest)
    (groups : List OpenGroup) (position : Nat) :
    ∃ level, level.tree = d ∧
      run ⟨groups, .empty, ⟨position, write d ++ rest⟩⟩ =
        run ⟨groups, level, ⟨position + (write d).length, rest⟩⟩ := by
  obtain ⟨level, tree_eq, run_eq⟩ := run_writeBranches (Tree.branches_ne_nil h.normal.self)
    h.branches quiet groups position []
  refine ⟨level, ?_, ?_⟩
  · rw [tree_eq, List.reverse_nil, List.nil_append, Tree.ofBranches_branches h.normal.self]
  · rw [write_eq_writeBranches]
    exact run_eq

theorem quiet_write_branch {b : Draft} (h : BranchReads b) (quiet : Quiet rest) :
    Quiet (write b ++ rest) := by
  have are_terms : ∀ t ∈ b.terms, t.IsTerm :=
    fun t t_mem => Tree.isTerm_of_mem_terms h.normal.self h.is_branch t_mem
  have terms_normal : ∀ t ∈ b.terms, t.Everywhere WritableNode :=
    fun t t_mem => h.normal.of_mem_terms t_mem
  rw [write_eq_writeAll h.is_branch]
  exact quiet_writeAll are_terms terms_normal quiet

/-- The body of a group does not start like a quantifier, even if it is empty. -/
theorem quiet_write_body {d : Draft} (h : DraftReads d) :
    Quiet (write d ++ .ofChar ')' :: rest) := by
  have not_empty := Tree.branches_ne_nil h.normal.self
  have reads := h.branches
  rw [write_eq_writeBranches]
  cases branches_eq : d.branches with
  | nil => exact absurd branches_eq not_empty
  | cons b bs =>
    rw [branches_eq] at reads
    have b_reads := reads b (by simp)
    cases bs with
    | nil => exact quiet_write_branch b_reads (quiet_cons (by decide))
    | cons c bs =>
      rw [writeBranches_cons_cons, List.append_assoc]
      exact quiet_write_branch b_reads (quiet_cons (by decide))

/-- An opening puts the level under way aside. -/
theorem run_opening {o : Opening} (valid : o.Valid) (quiet : Quiet rest)
    (groups : List OpenGroup) (level : Level) (position : Nat) :
    run ⟨groups, level, ⟨position, writeOpening o ++ rest⟩⟩ =
      run ⟨⟨position, o, level⟩ :: groups, .empty,
        ⟨position + (writeOpening o).length, rest⟩⟩ := by
  have no_mark : rest.head? ≠ some (.ofChar '?') := quiet '?' (by simp)
  exact run_eq_of_onward (.opening (readPiece_of_form (form_writeOpening valid) fun _ => no_mark))

/-- A closing makes a term of the level under way, with what follows. -/
theorem run_closing {group : OpenGroup} {level : Level} {term : Draft} {stop : Cursor}
    (quantified : quantify (group.opening.wrap level.tree) ⟨position + 1, rest⟩ =
      .ok (term, stop)) :
    run ⟨group :: groups, level, ⟨position, .ofChar ')' :: rest⟩⟩ =
      run ⟨groups, group.outer.add term, stop⟩ := by
  exact run_eq_of_onward (.closing readPiece_closing rfl quantified)

theorem write_wrap (o : Opening) (body : Draft) :
    write (o.wrap body) = writeOpening o ++ (write body ++ [.ofChar ')']) := by
  cases o with
  | group capturing name => rw [Opening.wrap, write]
  | look side negative => rw [Opening.wrap, write]

/-- A group is read back, with what follows, if its body is. -/
theorem readsWith_wrap {body : Draft} {o : Opening} (valid : o.Valid)
    (h : DraftReads body) : ReadsWith (o.wrap body) := by
  intro groups level position rest term stop quantified
  have length_eq : position + (write (o.wrap body)).length =
      position + (writeOpening o).length + (write body).length + 1 := by
    rw [write_wrap]
    simp only [List.length_append, List.length_cons, List.length_nil]
    omega
  have no_mark : Quiet (.ofChar ')' :: rest) := quiet_cons (by decide)
  obtain ⟨inner, rfl, body_run⟩ := run_write h no_mark (⟨position, o, level⟩ :: groups)
    (position + (writeOpening o).length)
  -- the opening, the body on a level of its own, and the closing with what follows
  rw [length_eq] at quantified
  rw [write_wrap, List.append_assoc, List.append_assoc, List.singleton_append,
    run_opening valid (quiet_write_body h) groups level position, body_run]
  exact run_closing quantified

/-- Every normal draft is read back: one case for each kind of node. -/
theorem draftReads {d : Draft} (normal : d.Everywhere WritableNode) :
    DraftReads d := by
  have leaf : ∀ t : Draft, t.IsLeaf → WritableNode t → DraftReads t := by
    intro t leaf node
    have reads := readsWith_of_leaf leaf node
    exact draftReads_of_term leaf.isTerm (leaf.everywhere node) (fun _ => reads) reads.reads
  have wrapped : ∀ (o : Opening) (body : Draft), (o.wrap body).IsTerm → o.Valid →
      (o.wrap body).Everywhere WritableNode → DraftReads body →
      DraftReads (o.wrap body) := by
    intro o body is_term valid node body_reads
    have reads := readsWith_wrap valid body_reads
    exact draftReads_of_term is_term node (fun _ => reads) reads.reads
  induction d using Tree.induct with
  | literal _ | wildcard | bracket _ _ | shorthand _ | anchor _ =>
    exact leaf _ trivial normal.self
  | group body capturing name ih =>
    have body_normal := normal.of_mem_children (List.mem_singleton_self body)
    exact wrapped (.group capturing name) body trivial normal.self normal (ih body_normal)
  | look side body negative ih =>
    have body_normal := normal.of_mem_children (List.mem_singleton_self body)
    exact wrapped (.look side negative) body trivial trivial normal (ih body_normal)
  | repetition body bounds greedy ih =>
    obtain ⟨quantifiable, consistent⟩ := normal.self
    have body_normal := normal.of_mem_children (List.mem_singleton_self body)
    have body_reads := (ih body_normal).with_quantifier quantifiable
    exact draftReads_of_term trivial normal nofun
      (reads_repetition quantifiable consistent body_reads)
  | concat terms ih =>
    have node := normal.self
    refine ⟨normal, nofun, ?_⟩
    intro b b_mem t t_mem
    obtain rfl := List.mem_singleton.1 b_mem
    -- the terms are their own only terms
    have is_term : t.IsTerm := node.2 t t_mem
    have t_reads := (ih t t_mem (normal.of_mem_terms t_mem)).terms
    rw [is_term.isBranch.branches_eq] at t_reads
    exact t_reads t (by simp) t (by simp [is_term.terms_eq])
  | alternation branches ih =>
    have node := normal.self
    refine ⟨normal, nofun, ?_⟩
    intro b b_mem t t_mem
    have is_branch : b.IsBranch := node.2 b b_mem
    have b_reads := (ih b b_mem (normal.of_mem_branches b_mem)).terms
    rw [is_branch.branches_eq] at b_reads
    exact b_reads b (by simp) t t_mem

/-- Reading a written draft gives it back. -/
theorem read_write {d : Draft} (normal : d.Everywhere WritableNode) :
    read (write d) = .ok d := by
  obtain ⟨level, tree_eq, run_eq⟩ := run_write (draftReads normal) quiet_nil [] 0
  rw [List.append_nil] at run_eq
  have finished : step ⟨[], level, ⟨0 + (write d).length, []⟩⟩ = .ok (.finished d) :=
    step_eq_finished_iff.2 ⟨rfl, rfl, rfl, tree_eq.symm⟩
  show run ⟨[], .empty, ⟨0, write d⟩⟩ = .ok d
  rw [run_eq]
  exact run_of_finished finished

end

end PatternSampler.Notation
