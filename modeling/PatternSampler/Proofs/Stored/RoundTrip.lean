import PatternSampler.Pattern.Stored
import PatternSampler.Proofs.Notation.NormalForm
import PatternSampler.Proofs.Stored.Check
import PatternSampler.Proofs.Stored.Decoder

/-! # Stored patterns are loaded as they were

  Loading the stored form of a compiled pattern in its own mode gives the pattern, and in the
  other mode it fails for the mode. Two things come together:

  - a tree whose lists and names have a length that fits 64 bits is read back from its stored
    form (`restores_readTreeWithin`), whatever its depth;
  - a normal tree passes the check (`checkTree_of_normal`), and compiled trees are normal.
-/

namespace PatternSampler

namespace Stored

/-! ## Trees -/

/-- What a node needs to be read back: the lengths of its lists and of its name fit 64 bits. -/
def StorableNode : Tree SymbolSet → Prop
  | .bracket content _ => content.intervals.length < 2 ^ 64
  | .concat terms => terms.length < 2 ^ 64
  | .alternation branches => branches.length < 2 ^ 64
  | .group _ _ name => ∀ n, name = some n → n.utf8ByteSize < 2 ^ 64
  | _ => True

theorem putTrees_eq_flatMap (ts : List (Tree SymbolSet)) : putTrees ts = ts.flatMap putTree := by
  induction ts with
  | nil => rfl
  | cons t ts ih => rw [putTrees, ih, List.flatMap_cons]

theorem length_putNumber_pos (n : Nat) : 0 < (putNumber n).length := by
  unfold putNumber
  split <;> simp

theorem restores_readSet {s : SymbolSet} (fits : s.intervals.length < 2 ^ 64) :
    Restores readSet (putSet s) s := by
  have interval : ∀ i : Interval, Restores readInterval (putInterval i) i := fun i =>
    (restores_readWord i.low).bind ((restores_readWord i.high).map (Interval.mk i.low))
  exact (restores_readList fits fun i _ => interval i).map SymbolSet.mk

theorem restores_readBounds (b : Bounds) : Restores readBounds (putBounds b) b :=
  (restores_readWord b.least).bind
    ((restores_readOption fun most _ => restores_readWord most).map (Bounds.mk b.least))

theorem restores_readShorthand (kind : Shorthand) :
    Restores readShorthand (putNumber (shorthandTag kind)) kind := by
  obtain ⟨c, negated⟩ := kind
  cases c <;> cases negated <;> exact restores_readTag (by decide) rfl

theorem restores_readAnchor (a : Anchor) : Restores readAnchor (putNumber (anchorTag a)) a := by
  cases a <;> exact restores_readTag (by decide) rfl

/-- A node is read back if its parts are: one case for each kind of node. -/
theorem restores_node {t : Tree SymbolSet} {depth : Nat} (storable : StorableNode t)
    (parts : ∀ u ∈ t.children, Restores (readTreeWithin depth) (putTree u) u) :
    Restores (readTreeWithin (depth + 1)) (putTree t) t := by
  cases t with
  | literal s =>
    unfold readTreeWithin putTree
    exact (restores_readNumber_word (by decide)).bind ((restores_readWord s).map Tree.literal)
  | wildcard =>
    unfold readTreeWithin putTree
    rw [← List.append_nil (putNumber 1)]
    exact (restores_readNumber_word (by decide)).bind (.pure Tree.wildcard)
  | bracket content negated =>
    unfold readTreeWithin putTree
    rw [List.append_assoc]
    exact (restores_readNumber_word (by decide)).bind ((restores_readSet storable).bind
      ((restores_readBool negated).map (Tree.bracket content)))
  | shorthand kind =>
    unfold readTreeWithin putTree
    exact (restores_readNumber_word (by decide)).bind
      ((restores_readShorthand kind).map Tree.shorthand)
  | concat terms =>
    unfold readTreeWithin putTree
    rw [List.append_assoc, putTrees_eq_flatMap]
    exact (restores_readNumber_word (by decide)).bind
      ((restores_readList storable parts).map Tree.concat)
  | alternation branches =>
    unfold readTreeWithin putTree
    rw [List.append_assoc, putTrees_eq_flatMap]
    exact (restores_readNumber_word (by decide)).bind
      ((restores_readList storable parts).map Tree.alternation)
  | group body capturing name =>
    have body_read := parts body (List.mem_singleton_self body)
    unfold readTreeWithin putTree
    rw [List.append_assoc, List.append_assoc]
    exact (restores_readNumber_word (by decide)).bind (body_read.bind
      ((restores_readBool capturing).bind ((restores_readOption fun n name_eq =>
        restores_readText (storable n name_eq)).map (Tree.group body capturing))))
  | repetition body bounds greedy =>
    have body_read := parts body (List.mem_singleton_self body)
    unfold readTreeWithin putTree
    rw [List.append_assoc, List.append_assoc]
    exact (restores_readNumber_word (by decide)).bind (body_read.bind
      ((restores_readBounds bounds).bind
        ((restores_readBool greedy).map (Tree.repetition body bounds))))
  | look side body negative =>
    have body_read := parts body (List.mem_singleton_self body)
    unfold readTreeWithin
    cases side with
    | ahead =>
      unfold putTree
      rw [List.append_assoc]
      exact (restores_readNumber_word (by decide)).bind (body_read.bind
        ((restores_readBool negative).map (Tree.look .ahead body)))
    | behind =>
      unfold putTree
      rw [List.append_assoc]
      exact (restores_readNumber_word (by decide)).bind (body_read.bind
        ((restores_readBool negative).map (Tree.look .behind body)))
  | anchor a =>
    unfold readTreeWithin putTree
    exact (restores_readNumber_word (by decide)).bind ((restores_readAnchor a).map Tree.anchor)

/-- A tree is stored as its tag and what follows it, where its parts are. -/
theorem exists_putTree_eq (t : Tree SymbolSet) :
    ∃ tag tail, putTree t = putNumber tag ++ tail ∧
      ∀ u ∈ t.children, (putTree u).length ≤ tail.length := by
  have in_list : ∀ (ts : List (Tree SymbolSet)) (count : List UInt8), ∀ u ∈ ts,
      (putTree u).length ≤ (count ++ putTrees ts).length := by
    intro ts count u u_mem
    have sublist : (putTree u).Sublist (ts.map putTree).flatten :=
      List.sublist_flatten_of_mem (List.mem_map_of_mem u_mem)
    rw [putTrees_eq_flatMap, List.flatMap_def, List.length_append]
    exact Nat.le_add_left_of_le sublist.length_le
  have in_body : ∀ (body : Tree SymbolSet) (more : List UInt8), ∀ u ∈ [body],
      (putTree u).length ≤ (putTree body ++ more).length := by
    intro body more u u_mem
    obtain rfl := List.mem_singleton.1 u_mem
    simp
  cases t with
  | literal s => exact ⟨_, _, rfl, fun _ => nofun⟩
  | wildcard => exact ⟨_, [], (List.append_nil _).symm, fun _ => nofun⟩
  | bracket content negated =>
    exact ⟨_, _, by rw [putTree, List.append_assoc], fun _ => nofun⟩
  | shorthand kind => exact ⟨_, _, rfl, fun _ => nofun⟩
  | concat terms =>
    have parts_le := in_list terms (putNumber terms.length)
    exact ⟨_, _, by rw [putTree, List.append_assoc], parts_le⟩
  | alternation branches =>
    have parts_le := in_list branches (putNumber branches.length)
    exact ⟨_, _, by rw [putTree, List.append_assoc], parts_le⟩
  | group body capturing name =>
    exact ⟨_, _, by rw [putTree, List.append_assoc, List.append_assoc], in_body body _⟩
  | repetition body bounds greedy =>
    exact ⟨_, _, by rw [putTree, List.append_assoc, List.append_assoc], in_body body _⟩
  | look side body negative =>
    cases side <;> exact ⟨_, _, by rw [putTree, List.append_assoc], in_body body _⟩
  | anchor a => exact ⟨_, _, rfl, fun _ => nofun⟩

theorem length_putTree_pos (t : Tree SymbolSet) : 0 < (putTree t).length := by
  obtain ⟨tag, tail, put_eq, -⟩ := exists_putTree_eq t
  have tag_pos := length_putNumber_pos tag
  rw [put_eq, List.length_append]
  omega

/-- The tag of a tree is a byte that its parts do not have. -/
theorem length_putTree_lt {t u : Tree SymbolSet} (h : u ∈ t.children) :
    (putTree u).length < (putTree t).length := by
  obtain ⟨tag, tail, put_eq, parts_le⟩ := exists_putTree_eq t
  have tag_pos := length_putNumber_pos tag
  have part_le := parts_le u h
  rw [put_eq, List.length_append]
  omega

/-- A tree is read back with any budget for its depth that is not less than its number of
    bytes. -/
theorem restores_readTreeWithin {t : Tree SymbolSet} (storable : t.Everywhere StorableNode)
    {depth : Nat} (enough : (putTree t).length ≤ depth) :
    Restores (readTreeWithin depth) (putTree t) t := by
  induction depth generalizing t with
  | zero =>
    have pos := length_putTree_pos t
    omega
  | succ depth ih =>
    -- each part has fewer bytes than the tree, so that one level less is enough for it
    refine restores_node storable.self fun u u_mem => ?_
    have lt := length_putTree_lt u_mem
    exact ih (storable.of_mem_children u_mem) (by omega)

theorem restores_readTree {t : Tree SymbolSet} (storable : t.Everywhere StorableNode) :
    Restores readTree (putTree t) t := by
  intro rest
  have enough : (putTree t).length ≤ (putTree t ++ rest).length := by simp
  exact restores_readTreeWithin storable enough rest

/-! ## Compiled trees -/

theorem utf8ByteSize_ofList_of_ascii {chars : List Char} (ascii : ∀ ch ∈ chars, ch.toNat < 128) :
    (String.ofList chars).utf8ByteSize = chars.length := by
  induction chars with
  | nil => rfl
  | cons ch chars ih =>
    have ch_le : ch.val ≤ 127 := by
      rw [UInt32.le_iff_toNat_le]
      exact Nat.le_of_lt_succ (ascii ch (by simp))
    have ch_one : ch.utf8Size = 1 := Char.utf8Size_eq_one_iff.2 ch_le
    have chars_eq := ih fun next next_mem => ascii next (List.mem_cons_of_mem ch next_mem)
    rw [String.ofList_cons, String.utf8ByteSize_append, String.utf8ByteSize_singleton, ch_one,
      chars_eq, List.length_cons, Nat.add_comm]

/-- A name is stored with a byte for each character. -/
theorem utf8ByteSize_name {name : String} (valid : ValidName name) :
    name.utf8ByteSize = name.length := by
  have size_eq := utf8ByteSize_ofList_of_ascii (toNat_lt_of_mem_name valid)
  rwa [String.ofList_toList, String.length_toList] at size_eq

/-- What is normal and short can be read back. -/
theorem storableNode {a : Alphabet} {limit : Nat} {t : Tree SymbolSet} (fits : limit < 2 ^ 64)
    (normal : t.NormalNode (fun s => s ∈ a.full) (Tree.NormalContent a))
    (short : t.ShortNode limit) : StorableNode t := by
  cases t with
  | bracket content negated =>
    have length_le : content.intervals.length ≤ 2 ^ 32 := normal.canonical.length_le
    exact Nat.lt_of_le_of_lt length_le (by decide)
  | concat terms => exact Nat.lt_of_le_of_lt short fits
  | alternation branches => exact Nat.lt_of_le_of_lt short fits
  | group body capturing name =>
    intro n name_eq
    have valid := (normal n name_eq).2
    rw [utf8ByteSize_name valid]
    exact Nat.lt_of_le_of_lt (short n name_eq) fits
  | literal _ | wildcard | shorthand _ | repetition _ _ _ | look _ _ _ | anchor _ => trivial

theorem restores_readPattern (m : Mode) {t : Tree SymbolSet}
    (storable : t.Everywhere StorableNode) :
    Restores readPattern (putNumber (modeTag m) ++ putTree t) (m, t) := by
  have mode : Restores readMode (putNumber (modeTag m)) m := by
    cases m <;> exact restores_readTag (by decide) rfl
  exact mode.bind ((restores_readTree storable).map (Prod.mk m))

end Stored

/-! ## Patterns -/

namespace Pattern

open Stored

theorem compile_eq_ok_iff [UnicodeClasses] {m : Mode} {p : m.Value} {q : Pattern m} :
    compile m p = .ok q ↔ Notation.parse m.alphabet (m.symbols p) = .ok q.tree := by
  unfold compile
  split
  · rename_i tree parsed
    rw [parsed, Except.ok.injEq, Except.ok.injEq]
    exact ⟨fun h => h ▸ rfl, fun h => by cases q; cases h; rfl⟩
  · rename_i misreading failed
    simp [failed]

/-- The pattern that a normal tree is written as is compiled to the tree. -/
theorem compile_pattern [UnicodeClasses] {m : Mode} {t : Tree SymbolSet}
    (normal : t.Normal m.alphabet) : compile m (t.pattern m) = .ok ⟨t⟩ :=
  compile_eq_ok_iff.2 (Tree.parse_pattern normal)

/-- The stored form of a compiled pattern is loaded as the pattern in its own mode, and is
    refused for its mode in the other one. A value in memory has fewer than `2 ^ 63` bytes, so
    that a pattern never has more symbols, and the lengths in its tree fit the 64 bits that
    they are read with. -/
theorem ofBytes_toBytes [UnicodeClasses] {m : Mode} {p : m.Value} {q : Pattern m}
    (in_memory : (m.symbols p).length < 2 ^ 63) (compiled : compile m p = .ok q) :
    ofBytes m q.toBytes = .ok q ∧
      ∀ other, other ≠ m → ofBytes other q.toBytes = .error (.wrongMode m other) := by
  obtain ⟨normal, short⟩ := Notation.everywhere_of_parse (compile_eq_ok_iff.1 compiled)
  -- the lists and names of the tree are hardly longer than the pattern
  have fits : (m.symbols p).length + 1 < 2 ^ 64 := by omega
  have storable : q.tree.Everywhere StorableNode :=
    (normal.and short).imp fun _ node => storableNode fits node.1 node.2
  have read_back := restores_readPattern m storable []
  rw [List.append_nil] at read_back
  have checked := checkTree_of_normal normal
  -- the mode is compared before the tree is checked, so that nothing else can be reported
  unfold ofBytes toBytes
  rw [read_back]
  constructor
  · show (if m = m then _ else _) = Except.ok q
    rw [if_pos rfl, checked]
  · intro other differs
    exact if_neg differs.symm

/-- A pattern of text with a named group, an empty branch, a negated bracket, a lazy quantifier
    and a lookbehind. -/
theorem ofBytes_toBytes_named_group :
    let p := "(?P<n1>é|)[^0-9a-z]\x7b2,300\x7d?(?<!.)"
    let q : Pattern .text := ⟨.concat [
      .group (.alternation [.literal (.ofChar 'é'), .concat []]) true (some "n1"),
      .repetition (.bracket ⟨[⟨0x30, 0x39⟩, ⟨0x61, 0x7A⟩]⟩ true) ⟨2, some 300⟩ false,
      .look .behind .wildcard true]⟩
    compile .text p = .ok q ∧ ofBytes .text q.toBytes = .ok q ∧
      ofBytes .bytes q.toBytes = .error (.wrongMode .text .bytes) := by
  intro p q
  have name : ValidName "n1" := ⟨'n', ['1'], by decide, by decide, by simp⟩
  have content : Tree.NormalContent Mode.text.alphabet ⟨[⟨0x30, 0x39⟩, ⟨0x61, 0x7A⟩]⟩ :=
    ⟨by decide, by decide, by decide⟩
  have accented : Symbol.ofChar 'é' ∈ Mode.text.alphabet.full := by decide
  have normal : q.tree.Normal Mode.text.alphabet := by
    simp [q, Tree.Normal, Tree.Everywhere, Tree.EverywhereIn, Tree.NormalNode, Tree.IsTerm,
      Tree.IsBranch, Tree.IsQuantifiable, Bounds.Consistent, name, content, accented]
  have written : q.tree.pattern .text = p := by decide +kernel
  have compiled : compile .text p = .ok q := by
    rw [← written]
    exact compile_pattern normal
  have in_memory : (Mode.text.symbols p).length < 2 ^ 63 := by decide +kernel
  have loaded := ofBytes_toBytes in_memory compiled
  exact ⟨compiled, loaded.1, loaded.2 .bytes (by decide)⟩

end Pattern

end PatternSampler
