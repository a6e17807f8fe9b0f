import PatternSampler.Alphabet
import PatternSampler.Proofs.Tree.Everywhere

/-! # Normal trees

  What is true of a tree because of the way patterns are written: a quantifier stands after
  one term and has consistent bounds, terms in a row are not concatenations themselves, and so
  on. `NormalNode` says it of one node, `Normal` of a whole tree over an alphabet.

  Which symbols and which contents of brackets are allowed is left open in `NormalNode`, so
  that it speaks of drafts as well as of trees over an alphabet.
-/

namespace PatternSampler

/-- The name of a group: a letter or an underscore, followed by letters, digits and
    underscores, all of them ASCII. -/
def ValidName (name : String) : Prop :=
  ∃ first rest, name.toList = first :: rest ∧ (first.isAlpha = true ∨ first = '_') ∧
    ∀ ch ∈ rest, ch.isAlphanum = true ∨ ch = '_'

/-- The letters, upper case before lower case. -/
theorem isAlpha_iff {ch : Char} : ch.isAlpha = true ↔
    (65 ≤ ch.toNat ∧ ch.toNat ≤ 90) ∨ (97 ≤ ch.toNat ∧ ch.toNat ≤ 122) := by
  show (decide ('A'.val ≤ ch.val ∧ ch.val ≤ 'Z'.val) ||
    (decide ('a'.val ≤ ch.val) && decide (ch.val ≤ 'z'.val))) = true ↔ _
  simp only [Bool.or_eq_true, Bool.and_eq_true, decide_eq_true_eq, UInt32.le_iff_toNat_le]
  exact Iff.rfl

theorem isDigit_iff {ch : Char} : ch.isDigit = true ↔ 48 ≤ ch.toNat ∧ ch.toNat ≤ 57 := by
  show (decide ('0'.val ≤ ch.val) && decide (ch.val ≤ '9'.val)) = true ↔ _
  simp only [Bool.and_eq_true, decide_eq_true_eq, UInt32.le_iff_toNat_le]
  exact Iff.rfl

theorem toNat_lt_of_alphanum {ch : Char} (h : ch.isAlphanum = true ∨ ch = '_') :
    ch.toNat < 128 := by
  rcases h with alphanum | rfl
  · rcases Bool.or_eq_true_iff.1 alphanum with letter | digit
    · have bounds := isAlpha_iff.1 letter
      omega
    · have bounds := isDigit_iff.1 digit
      omega
  · decide

theorem toNat_lt_of_mem_name {name : String} (valid : ValidName name) :
    ∀ ch ∈ name.toList, ch.toNat < 128 := by
  obtain ⟨first, rest, name_eq, first_valid, rest_valid⟩ := valid
  rw [name_eq]
  intro ch ch_mem
  rcases List.mem_cons.1 ch_mem with rfl | ch_mem
  · rcases first_valid with letter | underscore
    · exact toNat_lt_of_alphanum (Or.inl (by simp [Char.isAlphanum, letter]))
    · exact toNat_lt_of_alphanum (Or.inr underscore)
  · exact toNat_lt_of_alphanum (rest_valid ch ch_mem)

namespace Tree

variable {β γ : Type}

/-- What can stand in a concatenation as it is: neither a concatenation nor an alternation. -/
def IsTerm : Tree β → Prop
  | concat _ | alternation _ => False
  | _ => True

/-- What can stand between two bars as it is: no alternation. -/
def IsBranch : Tree β → Prop
  | alternation _ => False
  | _ => True

/-- What a quantifier can stand after: a single term, no anchor, and not repeated already. -/
def IsQuantifiable : Tree β → Prop
  | literal _ | wildcard | bracket _ _ | shorthand _ | group _ _ _ | look _ _ _ => True
  | concat _ | alternation _ | repetition _ _ _ | anchor _ => False

/-- What one piece of a pattern can be read as: a term without parts. -/
def IsLeaf : Tree β → Prop
  | literal _ | wildcard | bracket _ _ | shorthand _ | anchor _ => True
  | concat _ | alternation _ | group _ _ _ | repetition _ _ _ | look _ _ _ => False

/-- A node that some pattern can be read as, with symbols and contents of brackets as given. -/
def NormalNode (symbol : Symbol → Prop) (inside : β → Prop) : Tree β → Prop
  | literal s => symbol s
  | bracket content _ => inside content
  | concat terms => terms.length ≠ 1 ∧ ∀ t ∈ terms, t.IsTerm
  | alternation branches => 2 ≤ branches.length ∧ ∀ t ∈ branches, t.IsBranch
  | group _ capturing name => ∀ n, name = some n → capturing = true ∧ ValidName n
  | repetition body bounds _ => body.IsQuantifiable ∧ bounds.Consistent
  | wildcard | shorthand _ | look _ _ _ | anchor _ => True

/-- The contents of a bracket over an alphabet: a canonical set with a member at least, whose
    intervals start and end with symbols of the alphabet. -/
structure NormalContent (a : Alphabet) (s : SymbolSet) : Prop where
  /-- There is an interval. -/
  not_empty : s.intervals ≠ []
  /-- The set is canonical. -/
  canonical : s.Canonical
  /-- The ends of the intervals are symbols of the alphabet. -/
  ends : ∀ i ∈ s.intervals, i.low ∈ a.full ∧ i.high ∈ a.full

/-- The lists of a node, and the name if it has one, are not longer than a limit. -/
def ShortNode (limit : Nat) : Tree β → Prop
  | concat terms => terms.length ≤ limit
  | alternation branches => branches.length ≤ limit
  | group _ _ name => ∀ n, name = some n → n.length ≤ limit
  | _ => True

/-- A tree over an alphabet that is normal at every depth. -/
def Normal (a : Alphabet) (t : Tree SymbolSet) : Prop :=
  t.Everywhere (NormalNode (fun s => s ∈ a.full) (NormalContent a))

theorem IsQuantifiable.isTerm {t : Tree β} (h : t.IsQuantifiable) : t.IsTerm := by
  cases t with
  | concat _ | alternation _ | repetition _ _ _ | anchor _ => cases h
  | literal _ | wildcard | bracket _ _ | shorthand _ | group _ _ _ | look _ _ _ => trivial

theorem IsLeaf.isTerm {t : Tree β} (h : t.IsLeaf) : t.IsTerm := by
  cases t with
  | concat _ | alternation _ => cases h
  | _ => trivial

/-- A leaf has no node but itself. -/
theorem IsLeaf.everywhere {P : Tree β → Prop} {t : Tree β} (h : t.IsLeaf) (node : P t) :
    t.Everywhere P := by
  cases t with
  | literal _ | wildcard | bracket _ _ | shorthand _ | anchor _ => simpa [Everywhere] using node
  | concat _ | alternation _ | group _ _ _ | repetition _ _ _ | look _ _ _ => cases h

theorem IsTerm.isBranch {t : Tree β} (h : t.IsTerm) : t.IsBranch := by
  cases t with
  | alternation _ => cases h
  | _ => trivial

theorem NormalNode.imp {symbol symbol' : Symbol → Prop} {inside inside' : β → Prop} {t : Tree β}
    (h : t.NormalNode symbol inside) (symbols : ∀ s, symbol s → symbol' s)
    (contents : ∀ content, inside content → inside' content) :
    t.NormalNode symbol' inside' := by
  cases t with
  | literal s => exact symbols s h
  | bracket content negated => exact contents content h
  | _ => exact h

/-! ## Terms and branches -/

theorem ofTerms_of_length_ne_one {ts : List (Tree β)} (h : ts.length ≠ 1) :
    ofTerms ts = concat ts := by
  unfold ofTerms
  split
  · exact absurd rfl h
  · rfl

theorem ofBranches_of_length_ne_one {ts : List (Tree β)} (h : ts.length ≠ 1) :
    ofBranches ts = alternation ts := by
  unfold ofBranches
  split
  · exact absurd rfl h
  · rfl

theorem IsTerm.terms_eq {t : Tree β} (h : t.IsTerm) : t.terms = [t] := by
  cases t with
  | concat _ | alternation _ => cases h
  | _ => rfl

theorem IsBranch.branches_eq {t : Tree β} (h : t.IsBranch) : t.branches = [t] := by
  cases t with
  | alternation _ => cases h
  | _ => rfl

section

variable {symbol : Symbol → Prop} {inside : β → Prop} {t u : Tree β}

theorem ofTerms_terms (normal : t.NormalNode symbol inside) : ofTerms t.terms = t := by
  cases t with
  | concat terms => exact ofTerms_of_length_ne_one normal.1
  | _ => rfl

theorem ofBranches_branches (normal : t.NormalNode symbol inside) :
    ofBranches t.branches = t := by
  cases t with
  | alternation branches =>
    have two : 2 ≤ branches.length := normal.1
    have several : branches.length ≠ 1 := by omega
    exact ofBranches_of_length_ne_one several
  | _ => rfl

theorem branches_ne_nil (normal : t.NormalNode symbol inside) : t.branches ≠ [] := by
  cases t with
  | alternation branches =>
    have two : 2 ≤ branches.length := normal.1
    intro empty
    have none_left : branches.length = 0 := List.length_eq_zero_iff.2 empty
    omega
  | _ => simp [branches]

theorem isBranch_of_mem_branches (normal : t.NormalNode symbol inside) (h : u ∈ t.branches) :
    u.IsBranch := by
  cases t with
  | alternation branches => exact normal.2 u h
  | _ =>
    obtain rfl := List.mem_singleton.1 h
    trivial

theorem isTerm_of_mem_terms (normal : t.NormalNode symbol inside) (is_branch : t.IsBranch)
    (h : u ∈ t.terms) : u.IsTerm := by
  cases t with
  | alternation _ => cases is_branch
  | concat terms => exact normal.2 u h
  | _ =>
    obtain rfl := List.mem_singleton.1 h
    trivial

end

/-! ## Replacing contents -/

@[simp] theorem isTerm_map {f : Bool → β → γ} {t : Tree β} : (t.map f).IsTerm ↔ t.IsTerm := by
  cases t <;> simp [Tree.map, IsTerm]

@[simp] theorem isBranch_map {f : Bool → β → γ} {t : Tree β} :
    (t.map f).IsBranch ↔ t.IsBranch := by
  cases t <;> simp [Tree.map, IsBranch]

@[simp] theorem isQuantifiable_map {f : Bool → β → γ} {t : Tree β} :
    (t.map f).IsQuantifiable ↔ t.IsQuantifiable := by
  cases t <;> simp [Tree.map, IsQuantifiable]

/-- A tree stays normal when its symbols and the contents of its brackets stay allowed. -/
theorem NormalNode.map {symbol symbol' : Symbol → Prop} {inside : β → Prop} {inside' : γ → Prop}
    {f : Bool → β → γ} {t : Tree β} (h : t.NormalNode symbol inside)
    (symbols : ∀ s, symbol s → symbol' s)
    (contents : ∀ negated content, inside content → inside' (f negated content)) :
    (t.map f).NormalNode symbol' inside' := by
  cases t with
  | literal s => exact symbols s h
  | bracket content negated => exact contents negated content h
  | concat terms => simpa [Tree.map, NormalNode] using h
  | alternation branches => simpa [Tree.map, NormalNode] using h
  | group body capturing name => exact h
  | repetition body bounds greedy => simpa [Tree.map, NormalNode] using h
  | wildcard | shorthand _ | look _ _ _ | anchor _ => trivial

theorem ShortNode.map {limit : Nat} {f : Bool → β → γ} {t : Tree β} (h : t.ShortNode limit) :
    (t.map f).ShortNode limit := by
  cases t with
  | concat terms => simpa [Tree.map, ShortNode] using h
  | alternation branches => simpa [Tree.map, ShortNode] using h
  | group body capturing name => exact h
  | _ => trivial

end Tree

end PatternSampler
