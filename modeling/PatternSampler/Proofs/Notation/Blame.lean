import PatternSampler.Proofs.Mode
import PatternSampler.Proofs.Notation.Refusals

/-! # The place to blame

  A pattern is refused with a place to blame. Nothing is wrong with the symbols before that place:
  they begin some pattern that is accepted (`exists_completion`). So the mistake is never
  further to the left than the report says.

  For a refusal inside a piece, or behind a term, the symbols that the reader has come through are
  completed by an ending of the piece and a parenthesis for each open group. A group that is not
  closed is blamed where it was opened, and the reader has been at that place, too
  (`exists_leads_of_open`).
-/

namespace PatternSampler.Notation

open Cursor

variable {e : Misreading} {p q : Progress} {x text : List Symbol} {ending : List Char}

/-! ## Open groups -/

/-- Where an open group was opened, the reader has been. -/
theorem exists_leads_of_open (h : (Progress.start x).Leads p) :
    ∀ group ∈ p.groups, ∃ q, (Progress.start x).Leads q ∧ q.cursor.position = group.opened := by
  induction h with
  | refl => exact List.forall_mem_nil _
  | @tail between last led onward ih =>
    intro group is_open
    rcases onward with _ | _ | ⟨_, groups_eq, _⟩ | _
    · exact ih group is_open
    · rcases List.mem_cons.1 is_open with rfl | is_open
      · exact ⟨between, led, rfl⟩
      · exact ih group is_open
    · apply ih
      rw [groups_eq]
      exact List.mem_cons_of_mem _ is_open
    · exact ih group is_open

/-! ## Completions -/

/-- Some ASCII characters make the symbols a pattern that is accepted. -/
def Completable (x : List Symbol) : Prop :=
  ∃ tail : List Char, (∀ ch ∈ tail, ch.toNat < 128) ∧ ∃ d, read (x ++ ofChars tail) = .ok d

theorem detached_ending (is_ending : ending ∈ [] :: endings) : Detached (ofChars ending) := by
  have no_part : ∀ ending ∈ [] :: endings, ∀ ch ∈ ending.head?,
      ch.isDigit = false ∧ ch ∉ ['*', '+', '?', '{', '}', ','] := by simp [endings]
  intro ch starts
  rcases ending with _ | ⟨first, ending⟩
  · cases starts
  · obtain rfl : first = ch := eq_of_starts starts
    exact no_part _ is_ending first rfl

/-- What the reader reads to its end with an ending can be completed. -/
theorem completable_of_leads (is_ending : ending ∈ [] :: endings)
    (h : (Progress.start (x ++ ofChars ending)).Leads q) (ended : q.cursor.rest = []) :
    Completable x := by
  obtain ⟨d, accepted⟩ := exists_read_of_leads h ended
  refine ⟨ending ++ List.replicate q.groups.length ')', ?_, d, ?_⟩
  · have ascii : ∀ ending ∈ [] :: endings, ∀ ch ∈ ending, ch.toNat < 128 := by simp [endings]
    intro ch ch_mem
    rcases List.mem_append.1 ch_mem with ch_mem | ch_mem
    · exact ascii ending is_ending ch ch_mem
    · rw [List.eq_of_mem_replicate ch_mem]
      decide
  · rw [ofChars, List.map_append, ← List.append_assoc]
    exact accepted

/-- The reader has come to a place, and the symbols from there on that are not to blame go on to
    be read. Then all symbols before the blame can be completed. -/
theorem completable_take (led : (Progress.start x).Leads p) (begins : text <+: p.cursor.rest)
    (is_ending : ending ∈ [] :: endings)
    (leads : Progress.Leads ⟨p.groups, p.level, ⟨p.cursor.position, text ++ ofChars ending⟩⟩ q)
    (ended : q.cursor.rest = []) :
    p.cursor.position + text.length ≤ x.length ∧
      Completable (x.take (p.cursor.position + text.length)) := by
  obtain ⟨before, x_eq, position_eq, up_to⟩ := leads_up_to led
  obtain ⟨after, rest_eq⟩ := begins
  have led_short := leads_followedBy (detached_ending is_ending) (up_to text after rest_eq.symm)
  rw [position_eq] at leads
  have x_eq : x = before ++ text ++ after := by
    rw [x_eq, ← rest_eq, List.append_assoc]
  have length_eq : p.cursor.position + text.length = (before ++ text).length := by
    rw [position_eq, List.length_append]
  rw [length_eq, x_eq, List.take_left]
  refine ⟨?_, completable_of_leads is_ending (led_short.trans leads) ended⟩
  simp only [List.length_append]
  omega

/-- The symbols before a place that the reader has come to can be completed. -/
theorem completable_here (led : (Progress.start x).Leads p) :
    p.cursor.position ≤ x.length ∧ Completable (x.take p.cursor.position) :=
  completable_take led List.nil_prefix List.mem_cons_self .refl rfl

theorem completable_of_read_error (h : read x = .error e) :
    e.position ≤ x.length ∧ Completable (x.take e.position) := by
  obtain ⟨p, led, failed⟩ := Progress.leads_of_run_eq_error h
  rcases refused_step failed with ⟨_, _, _, rfl⟩ | ⟨is_open, rfl⟩ |
    ⟨refused, is_ending, leads, ended⟩
  · exact completable_here led
  · obtain ⟨opened, led_opened, position_eq⟩ := exists_leads_of_open led _ is_open
    have here := completable_here led_opened
    rw [position_eq] at here
    exact here
  · rw [refused.position]
    exact completable_take led refused.begins is_ending leads ended

/-! ## Values -/

variable {m : Mode}

/-- The place to blame lies in the pattern, and the symbols before it begin a pattern that is
    accepted. -/
theorem exists_completion [UnicodeClasses] {pattern : m.Value}
    (refused : parse m.alphabet (m.symbols pattern) = .error e) :
    e.position ≤ (m.symbols pattern).length ∧
      ∃ other : m.Value, (m.symbols pattern).take e.position <+: m.symbols other ∧
        ∃ t, parse m.alphabet (m.symbols other) = .ok t := by
  obtain ⟨le, tail, ascii, d, accepted⟩ :=
    completable_of_read_error (parse_eq_error_iff.1 refused)
  refine ⟨le, m.encode ((m.symbols pattern).take e.position ++ ofChars tail), ?_⟩
  have alphabetic : ∀ s ∈ (m.symbols pattern).take e.position ++ ofChars tail,
      s ∈ m.alphabet.full := by
    intro s s_mem
    rcases List.mem_append.1 s_mem with s_mem | s_mem
    · exact Mode.symbols_mem_full pattern s (List.mem_of_mem_take s_mem)
    · obtain ⟨ch, ch_mem, rfl⟩ := List.mem_map.1 s_mem
      exact Mode.mem_full_of_ascii m (ascii ch ch_mem)
  rw [Mode.symbols_encode alphabetic]
  exact ⟨List.prefix_append _ _, exists_parse_iff.2 ⟨d, accepted⟩⟩

/-- A name in a group in a branch of another group, with a character that cannot stand in it. -/
theorem exists_completion_name :
    let pattern := "(x|(?<n1*)"
    let e : Misreading := .malformed 8 .badNameCharacter
    parse Mode.text.alphabet (Mode.text.symbols pattern) = .error e ∧
      e.position ≤ (Mode.text.symbols pattern).length ∧
      ∃ other : Mode.text.Value,
        (Mode.text.symbols pattern).take e.position <+: Mode.text.symbols other ∧
          ∃ t, parse Mode.text.alphabet (Mode.text.symbols other) = .ok t := by
  intro pattern e
  have symbols_eq : Mode.text.symbols pattern =
      ofChars ['(', 'x', '|', '(', '?', '<', 'n', '1', '*', ')'] := by decide +kernel
  have refused : parse Mode.text.alphabet (Mode.text.symbols pattern) = .error e := by
    rw [symbols_eq]
    cbv
  exact ⟨refused, exists_completion refused⟩

end PatternSampler.Notation
