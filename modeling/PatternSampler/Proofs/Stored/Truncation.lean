import PatternSampler.Proofs.Stored.RoundTrip

/-! # Truncated patterns are never loaded

  Stored values say themselves where they end: a number by its last byte, a list and a text by the
  count before them, and everything else by what it is. Reading therefore never looks past the end
  of a value. If it succeeds on some bytes, it gives the same value when more bytes follow, and
  leaves these; if it fails for another reason than the end of the bytes, it fails in the same way
  when more bytes follow (`Continues`).

  So if whole bytes are read to their end, there is nothing that reading could find in a part of
  them: neither a value, which would leave some of the missing bytes, nor another failure. It runs
  out of bytes (`Restores.truncated`), wherever they are cut.
-/

namespace PatternSampler

namespace Stored

variable {α β : Type}

/-- The second reader does on more bytes what the first one does on some of them, unless this one
    runs out of bytes. Readers are compared in pairs because the number of bytes is also the
    budget for the depth of a tree, which grows with the bytes. -/
structure Continues (read read' : Decoder α) : Prop where
  /-- The same value is read, and more bytes are left. -/
  ok : ∀ {bytes value rest}, read bytes = .ok (value, rest) →
    ∀ more, read' (bytes ++ more) = .ok (value, rest ++ more)
  /-- The failure is the same. -/
  error : ∀ {bytes failure}, read bytes = .error failure → failure ≠ .endOfBytes →
    ∀ more, read' (bytes ++ more) = .error failure

namespace Continues

theorem pure (value : α) : Continues (pure value) (pure value) where
  ok {bytes value' rest} read_eq more := by
    have same : Except.ok (value, bytes) = Except.ok (value', rest) := read_eq
    cases same
    rfl
  error read_eq := by cases read_eq

/-- Running out of bytes says nothing about more of them. -/
theorem of_endOfBytes (read' : Decoder α) : Continues (throw .endOfBytes) read' where
  ok read_eq := by cases read_eq
  error {bytes failure} read_eq other := by
    have same : (Except.error .endOfBytes : Except DecodeError (α × List UInt8)) =
      .error failure := read_eq
    cases same
    exact absurd rfl other

/-- Failing without looking at a byte. -/
theorem throw (failure : DecodeError) :
    Continues (throw failure : Decoder α) (throw failure) where
  ok read_eq := by cases read_eq
  error {bytes failure'} read_eq _ more := by
    have same : (Except.error failure : Except DecodeError (α × List UInt8)) =
      .error failure' := read_eq
    cases same
    rfl

/-- One part after another: the second goes on where the first has stopped. -/
theorem bind {first first' : Decoder α} {next next' : α → Decoder β}
    (continues : Continues first first') (continues_next : ∀ a, Continues (next a) (next' a)) :
    Continues (first >>= next) (first' >>= next') where
  ok {bytes value rest} read_eq more := by
    have parts : (first bytes >>= fun p => next p.1 p.2) = .ok (value, rest) := read_eq
    obtain ⟨⟨a, middle⟩, first_eq, next_eq⟩ := Notation.bind_eq_ok_iff.1 parts
    show (first' (bytes ++ more) >>= fun p => next' p.1 p.2) = _
    rw [continues.ok first_eq more]
    exact (continues_next a).ok next_eq more
  error {bytes failure} read_eq other more := by
    have parts : (first bytes >>= fun p => next p.1 p.2) = .error failure := read_eq
    show (first' (bytes ++ more) >>= fun p => next' p.1 p.2) = _
    rcases Notation.bind_eq_error_iff.1 parts with first_eq | ⟨⟨a, middle⟩, first_eq, next_eq⟩
    · rw [continues.error first_eq other more]
      rfl
    · rw [continues.ok first_eq more]
      exact (continues_next a).error next_eq other more

/-- A value that is only put into a form is found in the same places. -/
theorem map {read read' : Decoder α} (f : α → β) (continues : Continues read read') :
    Continues (read >>= fun a => Pure.pure (f a)) (read' >>= fun a => Pure.pure (f a)) :=
  continues.bind fun a => pure (f a)

end Continues

/-! ## Bytes and numbers -/

theorem continues_readByte : Continues readByte readByte where
  ok {bytes value rest} read_eq more := by
    cases bytes with
    | nil => cases read_eq
    | cons b bytes =>
      cases read_eq
      rfl
  error {bytes failure} read_eq other := by
    cases bytes with
    | nil =>
      cases read_eq
      exact absurd rfl other
    | cons b bytes => cases read_eq

theorem continues_readBytes (n : Nat) : Continues (readBytes n) (readBytes n) where
  ok {bytes value rest} read_eq more := by
    unfold readBytes at read_eq ⊢
    split at read_eq
    · rename_i enough
      cases read_eq
      have enough_more : n ≤ (bytes ++ more).length := by
        rw [List.length_append]
        omega
      rw [if_pos enough_more, List.take_append_of_le_length enough,
        List.drop_append_of_le_length enough]
    · cases read_eq
  error {bytes failure} read_eq other := by
    unfold readBytes at read_eq
    split at read_eq
    · cases read_eq
    · cases read_eq
      exact absurd rfl other

/-- A number ends with its last byte, wherever the bytes end. -/
theorem continues_readDigits (lastByte n : Nat) :
    Continues (readDigits lastByte n) (readDigits lastByte n) := by
  induction n with
  | zero => exact .throw .numberTooWide
  | succ n ih =>
    unfold readDigits
    refine continues_readByte.bind fun b => ?_
    split
    · split
      · exact .throw .numberTooWide
      · exact .pure b.toNat
    · exact ih.map fun high => b.toNat - 128 + 128 * high

theorem continues_readNumber (width : NumberWidth) :
    Continues (readNumber width) (readNumber width) :=
  continues_readDigits width.lastByte width.bytes

theorem continues_readWord : Continues readWord readWord :=
  (continues_readNumber .word).map UInt32.ofNat

/-! ## Alternatives -/

theorem continues_readTag (table : List α) : Continues (readTag table) (readTag table) := by
  refine (continues_readNumber .word).bind fun n => ?_
  split
  · exact .pure _
  · exact .throw .badTag

theorem continues_readBool : Continues readBool readBool := by
  refine continues_readByte.bind fun b => ?_
  split
  · exact .pure false
  · exact .pure true
  · exact .throw .badBool

theorem continues_readOption {read read' : Decoder α} (continues : Continues read read') :
    Continues (readOption read) (readOption read') := by
  refine continues_readByte.bind fun b => ?_
  split
  · exact .pure none
  · exact continues.map some
  · exact .throw .badOption

/-! ## Lists and texts -/

theorem continues_readMany {read read' : Decoder α} (continues : Continues read read') (n : Nat) :
    Continues (readMany read n) (readMany read' n) := by
  induction n with
  | zero => exact .pure []
  | succ n ih => exact continues.bind fun first => ih.map fun others => first :: others

theorem continues_readList {read read' : Decoder α} (continues : Continues read read') :
    Continues (readList read) (readList read') :=
  (continues_readNumber .long).bind fun n => continues_readMany continues n

theorem continues_readText : Continues readText readText := by
  refine (continues_readNumber .long).bind fun n => (continues_readBytes n).bind fun bytes => ?_
  split
  · exact .pure _
  · exact .throw .badText

/-! ## Trees -/

theorem continues_readInterval : Continues readInterval readInterval :=
  continues_readWord.bind fun low => continues_readWord.map (Interval.mk low)

theorem continues_readSet : Continues readSet readSet :=
  (continues_readList continues_readInterval).map SymbolSet.mk

theorem continues_readBounds : Continues readBounds readBounds :=
  continues_readWord.bind fun least =>
    (continues_readOption continues_readWord).map (Bounds.mk least)

/-- A tree goes on with more bytes under a greater budget. Under a budget that is used up no byte
    is left. -/
theorem continues_readTreeWithin {depth depth' : Nat} (le : depth ≤ depth') :
    Continues (readTreeWithin depth) (readTreeWithin depth') := by
  induction depth generalizing depth' with
  | zero =>
    unfold readTreeWithin
    exact .of_endOfBytes _
  | succ depth ih =>
    obtain ⟨depth', rfl⟩ := Nat.exists_eq_add_of_le' le
    have part := ih (Nat.le_add_left depth depth')
    unfold readTreeWithin
    refine (continues_readNumber .word).bind fun tag => ?_
    -- the tag decides which parts follow, as it does for both readers
    split
    · exact continues_readWord.map Tree.literal
    · exact .pure Tree.wildcard
    · exact continues_readSet.bind fun s => continues_readBool.map (Tree.bracket s)
    · exact (continues_readTag _).map Tree.shorthand
    · exact (continues_readList part).map Tree.concat
    · exact (continues_readList part).map Tree.alternation
    · exact part.bind fun body => continues_readBool.bind fun capturing =>
        (continues_readOption continues_readText).map (Tree.group body capturing)
    · exact part.bind fun body => continues_readBounds.bind fun bounds =>
        continues_readBool.map (Tree.repetition body bounds)
    · exact part.bind fun body => continues_readBool.map (Tree.look .ahead body)
    · exact part.bind fun body => continues_readBool.map (Tree.look .behind body)
    · exact (continues_readTag _).map Tree.anchor
    · exact .throw .badTag

theorem continues_readTree : Continues readTree readTree where
  ok {bytes value rest} read_eq more := by
    have le : bytes.length ≤ (bytes ++ more).length := by simp
    exact (continues_readTreeWithin le).ok read_eq more
  error {bytes failure} read_eq other more := by
    have le : bytes.length ≤ (bytes ++ more).length := by simp
    exact (continues_readTreeWithin le).error read_eq other more

theorem continues_readPattern : Continues readPattern readPattern :=
  (continues_readTag [Mode.text, Mode.bytes]).bind fun m => continues_readTree.map (Prod.mk m)

/-! ## Truncated bytes -/

/-- What is restored from whole bytes cannot be read from a part of them: reading runs out of
    bytes, wherever they are cut. -/
theorem Restores.truncated {read : Decoder α} {bytes cut : List UInt8} {value : α}
    (restores : Restores read bytes value) (continues : Continues read read)
    (proper : cut <+: bytes) (shorter : cut ≠ bytes) : read cut = .error .endOfBytes := by
  obtain ⟨more, rfl⟩ := proper
  have whole := restores []
  rw [List.append_nil] at whole
  cases read_eq : read cut with
  | ok result =>
    -- what was read of the part would leave the bytes that were cut off
    have left := continues.ok read_eq more
    rw [whole] at left
    have all_read : [] = result.2 ++ more := congrArg Prod.snd (Except.ok.inj left)
    have nothing_cut : more = [] := (List.append_eq_nil_iff.1 all_read.symm).2
    exact absurd (by rw [nothing_cut, List.append_nil]) shorter
  | error failure =>
    by_cases ended : failure = .endOfBytes
    · rw [ended]
    · have failed := continues.error read_eq ended more
      rw [whole] at failed
      cases failed

/-- Of two rows of bytes that are read to their ends, neither is a part of the other: a value ends
    in one place only. -/
theorem Restores.eq_of_prefix {read : Decoder α} {bytes part : List UInt8} {value value' : α}
    (restores : Restores read bytes value) (restores_part : Restores read part value')
    (at_front : part <+: bytes) : part = bytes ∧ value' = value := by
  obtain ⟨more, rfl⟩ := at_front
  have whole := restores []
  rw [List.append_nil, restores_part more] at whole
  have same := Prod.mk.inj (Except.ok.inj whole)
  rw [same.2, List.append_nil]
  exact ⟨rfl, same.1⟩

end Stored

/-! ## Patterns -/

namespace Pattern

open Stored

variable {m : Mode} {p : m.Value} {q : Pattern m}

/-- A compiled pattern is read back from its stored form. -/
theorem restores_toBytes [UnicodeClasses] (in_memory : (m.symbols p).length < 2 ^ 63)
    (compiled : compile m p = .ok q) : Restores readPattern q.toBytes (m, q.tree) := by
  obtain ⟨normal, short⟩ := Notation.everywhere_of_parse (compile_eq_ok_iff.1 compiled)
  have fits : (m.symbols p).length + 1 < 2 ^ 64 := by omega
  have storable : q.tree.Everywhere StorableNode :=
    (normal.and short).imp fun _ node => storableNode fits node.1 node.2
  exact restores_readPattern m storable

/-- A stored pattern that is cut off anywhere, in the middle of a number, of a name or between two
    terms, is refused in both modes because the bytes end too early. No stored pattern is the
    beginning of another one: if its bytes are, it has the same mode and the same tree, and they are
    all the bytes of the other. A value in memory has fewer than `2 ^ 63` bytes, so that a pattern
    never has more symbols. -/
theorem ofBytes_truncated [UnicodeClasses] (in_memory : (m.symbols p).length < 2 ^ 63)
    (compiled : compile m p = .ok q) :
    (∀ cut, cut <+: q.toBytes → cut ≠ q.toBytes →
      ∀ other, ofBytes other cut = .error (.undecodable .endOfBytes)) ∧
    ∀ (m' : Mode) (p' : m'.Value) (q' : Pattern m'), (m'.symbols p').length < 2 ^ 63 →
      compile m' p' = .ok q' → q'.toBytes <+: q.toBytes →
        q'.toBytes = q.toBytes ∧ (m', q'.tree) = (m, q.tree) := by
  have restores := restores_toBytes in_memory compiled
  constructor
  · intro cut at_front shorter other
    have unreadable := restores.truncated continues_readPattern at_front shorter
    unfold ofBytes
    rw [unreadable]
  · intro m' p' q' in_memory' compiled' at_front
    exact restores.eq_of_prefix (restores_toBytes in_memory' compiled') at_front

/-- The stored form of a pattern with a name, two numbers of two bytes and a list. Nothing is loaded
    from the first bytes of it, however many they are, and the stored form of no pattern of bytes
    starts it. -/
theorem ofBytes_truncated_named_group :
    let p := "(?P<no>é)a\x7b2,300\x7d"
    let q : Pattern .text := ⟨.concat [.group (.literal (.ofChar 'é')) true (some "no"),
      .repetition (.literal 0x61) ⟨2, some 300⟩ true]⟩
    let one : Pattern .bytes := ⟨.literal 0x61⟩
    compile .text p = .ok q ∧
      q.toBytes = [0, 4, 2, 6, 0, 0xE9, 1, 1, 1, 2, 0x6E, 0x6F, 7, 0, 0x61, 2, 1, 0xAC, 2, 1] ∧
      (∀ n < 20, ∀ other,
        ofBytes other (q.toBytes.take n) = .error (.undecodable .endOfBytes)) ∧
      ¬ one.toBytes <+: q.toBytes := by
  intro p q one
  have name : ValidName "no" := ⟨'n', ['o'], by decide, by decide, by simp⟩
  have accented : Symbol.ofChar 'é' ∈ Mode.text.alphabet.full := by decide
  have ascii : (0x61 : Symbol) ∈ Mode.text.alphabet.full := by decide
  have normal : q.tree.Normal Mode.text.alphabet := by
    simp [q, Tree.Normal, Tree.Everywhere, Tree.EverywhereIn, Tree.NormalNode, Tree.IsTerm,
      Tree.IsQuantifiable, Bounds.Consistent, name, accented, ascii]
  have written : q.tree.pattern .text = p := by decide +kernel
  have compiled : compile .text p = .ok q := by
    rw [← written]
    exact compile_pattern normal
  have in_memory : (Mode.text.symbols p).length < 2 ^ 63 := by decide +kernel
  have stored : q.toBytes =
      [0, 4, 2, 6, 0, 0xE9, 1, 1, 1, 2, 0x6E, 0x6F, 7, 0, 0x61, 2, 1, 0xAC, 2, 1] := by
    decide +kernel
  obtain ⟨refused, apart⟩ := ofBytes_truncated in_memory compiled
  refine ⟨compiled, stored, ?_, ?_⟩
  · intro n n_lt other
    refine refused _ (List.take_prefix n q.toBytes) ?_ other
    intro all
    have length_eq := congrArg List.length all
    rw [List.length_take, stored] at length_eq
    have length_eq : min n 20 = 20 := length_eq
    omega
  · intro at_front
    have normal_one : one.tree.Normal Mode.bytes.alphabet := by
      have in_bytes : (0x61 : Symbol) ∈ Mode.bytes.alphabet.full := by decide
      exact in_bytes
    have small : (Mode.bytes.symbols (one.tree.pattern .bytes)).length < 2 ^ 63 := by
      decide +kernel
    have same := (apart .bytes _ one small (compile_pattern normal_one) at_front).2
    exact absurd (congrArg Prod.fst same) (by decide)

end Pattern

end PatternSampler
