import Mathlib.Data.List.Induction
import PatternSampler.Proofs.Stored.Decoder
import PatternSampler.Settings.Document
import PatternSampler.Stored.Settings

/-! # Which expansion limits can be reached

  Settings are made and changed in several ways. Setting the expansion limit refuses zero, but
  reading settings, from a document or from stored bytes, takes a zero as it stands. So the
  limit of settings is not always positive (`limit_zero_loaded`): it is zero exactly if zero was
  read and the limit was left alone ever since (`limit_eq_zero_iff_loaded`).

  The proof says of each kind of change what it does to a limit of zero (`Change.limit_apply`)
  and goes through the changes from the last one back.
-/

namespace PatternSampler

/-! ## Reading a limit -/

namespace Document

/-- The part of a document that gives the expansion limit. -/
def limitPart? : Document → Option Document
  | object fields => fields.lookup "expansion_limit"
  | list [_, _, limit] => some limit
  | _ => none

variable {d : Document} {s : Settings}

/-- Settings that are read have the limit that its part stands for. -/
theorem limit_of_settingsOfParts? {seed cap limit : Option Document}
    (h : settingsOfParts? seed cap limit = some s) :
    partOr ({} : Settings).expansionLimit long? limit = some s.expansionLimit := by
  unfold settingsOfParts? at h
  obtain ⟨seeding, -, h⟩ := Option.bind_eq_some_iff.1 h
  obtain ⟨repeatCap, -, h⟩ := Option.bind_eq_some_iff.1 h
  obtain ⟨expansionLimit, limit_eq, h⟩ := Option.bind_eq_some_iff.1 h
  cases h
  exact limit_eq

theorem limit_of_settings? (h : d.settings? = some s) :
    partOr ({} : Settings).expansionLimit long? d.limitPart? = some s.expansionLimit := by
  unfold settings? at h
  -- each form of a document names its parts in a way of its own
  split at h
  · split at h
    · exact limit_of_settingsOfParts? h
    · cases h
  · exact limit_of_settingsOfParts? h
  · exact limit_of_settingsOfParts? h
  · exact limit_of_settingsOfParts? h
  · exact limit_of_settingsOfParts? h
  · cases h

/-- A part stands for a limit of zero only if it is the number zero. -/
theorem long?_eq_zero_iff : d.long? = some 0 ↔ d = natural 0 := by
  constructor
  · intro h
    obtain ⟨n, below, n_eq⟩ := Option.map_eq_some_iff.1 h
    unfold below? at below
    split at below
    · split at below
      · rename_i fits
        cases below
        have n_zero : n = 0 := by
          have toNat_eq := congrArg UInt64.toNat n_eq
          rw [UInt64.toNat_ofNat', Nat.mod_eq_of_lt fits] at toNat_eq
          exact toNat_eq
        rw [n_zero]
      · cases below
    · cases below
  · rintro rfl
    rfl

theorem limit_eq_zero_iff (h : d.settings? = some s) :
    s.expansionLimit = 0 ↔ d.limitPart? = some (natural 0) := by
  have limit_eq := limit_of_settings? h
  cases part : d.limitPart? with
  | none =>
    rw [part] at limit_eq
    have standard : s.expansionLimit = 65536 := (Option.some.inj limit_eq).symm
    rw [standard]
    constructor
    · intro zero
      exact absurd zero (by decide)
    · intro none_eq
      cases none_eq
  | some given =>
    rw [part] at limit_eq
    have read_eq : given.long? = some s.expansionLimit := limit_eq
    rw [Option.some.injEq, ← long?_eq_zero_iff, read_eq, Option.some.injEq]

/-- A limit of zero is not read where another one is given beside it. -/
example : (object [("expansion_limit", natural 0), ("expansion_limit", natural 5)]).settings? =
    none := by decide

end Document

namespace Stored

/-! ## Stored settings -/

theorem restores_readSeeding (seeding : Seeding) :
    Restores readSeeding (putSeeding seeding) seeding := by
  cases seeding with
  | random =>
    intro rest
    have tag := restores_readNumber_word (x := 0) (by decide)
    show (readNumber .word (putNumber 0 ++ rest) >>= _) = _
    rw [tag rest]
    rfl
  | fixed seed =>
    have tag := restores_readNumber_word (x := 1) (by decide)
    exact tag.bind ((restores_readLong seed).map Seeding.fixed)

/-- Settings are read back as they were stored, whatever their limit is. -/
theorem restores_readSettings (s : Settings) : Restores readSettings (putSettings s) s := by
  have limit := (restores_readLong s.expansionLimit).map (Settings.mk s.seeding s.repeatCap)
  have words : Restores (do
      let cap ← readWord
      let limit ← readLong
      return ⟨s.seeding, cap, limit⟩) (putWord s.repeatCap ++ putLong s.expansionLimit) s :=
    (restores_readWord s.repeatCap).bind limit
  unfold putSettings
  rw [List.append_assoc]
  exact (restores_readSeeding s.seeding).bind words

end Stored

namespace Settings

theorem ofBytes_toBytes_eq_ok (s : Settings) : ofBytes s.toBytes = .ok s := by
  have read := Stored.restores_readSettings s []
  rw [List.append_nil] at read
  show (Stored.readSettings (Stored.putSettings s)).map Prod.fst = .ok s
  rw [read]
  rfl

/-! ## Changes -/

/-- A way to make settings or to change them. -/
inductive Change where
  /-- Starts over with the defaults. -/
  | default
  /-- Starts over with the defaults and a seed. -/
  | seeded (seed : UInt64)
  /-- Another seeding. -/
  | withSeeding (seeding : Seeding)
  /-- Another repeat cap. -/
  | withRepeatCap (cap : UInt32)
  /-- Another expansion limit, unless it is refused. -/
  | withExpansionLimit (limit : UInt64)
  /-- The settings that a document writes down, if it does. -/
  | ofDocument (d : Document)
  /-- The settings in stored bytes, if they can be read. -/
  | ofBytes (bytes : List UInt8)

namespace Change

/-- The settings after a change. One that is refused leaves them as they are. -/
def apply (s : Settings) : Change → Settings
  | default => {}
  | seeded seed => .seeded seed
  | withSeeding seeding => s.withSeeding seeding
  | withRepeatCap cap => s.withRepeatCap cap
  | withExpansionLimit limit =>
    match s.withExpansionLimit limit with
    | .ok changed => changed
    | .error _ => s
  | ofDocument d =>
    match d.settings? with
    | some read => read
    | none => s
  | ofBytes bytes =>
    match Settings.ofBytes bytes with
    | .ok read => read
    | .error _ => s

/-- A limit of zero is read: the document gives the number zero for it, or the bytes hold
    settings with that limit. -/
def LoadsZero : Change → Prop
  | ofDocument d => d.settings?.isSome ∧ d.limitPart? = some (.natural 0)
  | ofBytes bytes => ∃ read, Settings.ofBytes bytes = .ok read ∧ read.expansionLimit = 0
  | _ => False

/-- The limit is left alone: another part is changed, or the change is refused. -/
def KeepsLimit : Change → Prop
  | default | seeded _ => False
  | withSeeding _ | withRepeatCap _ => True
  | withExpansionLimit limit => limit = 0
  | ofDocument d => d.settings? = none
  | ofBytes bytes => ∃ e, Settings.ofBytes bytes = .error e

/-- What one change does to the limit: it is zero afterwards if zero is read, or if it was zero
    before and is left alone. -/
theorem limit_apply (s : Settings) (c : Change) :
    (c.apply s).expansionLimit = 0 ↔ c.LoadsZero ∨ c.KeepsLimit ∧ s.expansionLimit = 0 := by
  cases c with
  | default =>
    show (65536 : UInt64) = 0 ↔ False ∨ False ∧ _
    simp
  | seeded seed =>
    show (65536 : UInt64) = 0 ↔ False ∨ False ∧ _
    simp
  | withSeeding seeding =>
    show s.expansionLimit = 0 ↔ False ∨ True ∧ _
    simp
  | withRepeatCap cap =>
    show s.expansionLimit = 0 ↔ False ∨ True ∧ _
    simp
  | withExpansionLimit limit =>
    by_cases zero : limit = 0
    · simp [apply, LoadsZero, KeepsLimit, Settings.withExpansionLimit, zero]
    · simp [apply, LoadsZero, KeepsLimit, Settings.withExpansionLimit, zero]
  | ofDocument d =>
    unfold apply LoadsZero KeepsLimit
    cases read_eq : d.settings? with
    | some read =>
      have limit_zero := Document.limit_eq_zero_iff read_eq
      simp [read_eq, limit_zero]
    | none => simp [read_eq]
  | ofBytes bytes =>
    unfold apply LoadsZero KeepsLimit
    cases read_eq : Settings.ofBytes bytes with
    | ok read => simp [read_eq]
    | error e => simp [read_eq]

/-- Stored settings with a limit of zero are read like all others. -/
theorem loadsZero_toBytes {s : Settings} :
    (ofBytes s.toBytes).LoadsZero ↔ s.expansionLimit = 0 := by
  show (∃ read, Settings.ofBytes s.toBytes = .ok read ∧ read.expansionLimit = 0) ↔ _
  simp [ofBytes_toBytes_eq_ok]

end Change

/-! ## Runs -/

/-- The settings after some changes, the first of which is made to the defaults. -/
def after (changes : List Change) : Settings := changes.foldl Change.apply {}

theorem after_concat (changes : List Change) (last : Change) :
    after (changes ++ [last]) = last.apply (after changes) := by
  unfold after
  rw [List.foldl_append]
  rfl

/-- The expansion limit is zero exactly if some change read a limit of zero and every later one
    left the limit alone. The induction takes the last change off. -/
theorem limit_eq_zero_iff_loaded (changes : List Change) :
    (after changes).expansionLimit = 0 ↔
      ∃ before change later, changes = before ++ change :: later ∧ change.LoadsZero ∧
        ∀ c ∈ later, c.KeepsLimit := by
  induction changes using List.reverseRecOn with
  | nil =>
    constructor
    · intro zero
      exact absurd zero (by decide)
    · rintro ⟨before, change, later, none_eq, -⟩
      exact absurd none_eq (by simp)
  | append_singleton changes last ih =>
    rw [after_concat, Change.limit_apply, ih]
    constructor
    · rintro (loads | ⟨keeps, before, change, later, rfl, loads, all_keep⟩)
      · exact ⟨changes, last, [], rfl, loads, List.forall_mem_nil _⟩
      · refine ⟨before, change, later ++ [last], by simp, loads, ?_⟩
        intro c c_mem
        rcases List.mem_append.1 c_mem with c_mem | c_mem
        · exact all_keep c c_mem
        · obtain rfl := List.mem_singleton.1 c_mem
          exact keeps
    · rintro ⟨before, change, later, changes_eq, loads, all_keep⟩
      rcases List.eq_nil_or_concat later with rfl | ⟨others, c, rfl⟩
      · -- zero was read last
        obtain ⟨-, last_eq⟩ := List.append_inj' changes_eq rfl
        cases last_eq
        exact Or.inl loads
      · rw [List.concat_eq_append] at changes_eq all_keep
        have split_eq : changes ++ [last] = (before ++ change :: others) ++ [c] := by
          rw [changes_eq, List.append_assoc]
          rfl
        obtain ⟨rfl, last_eq⟩ := List.append_inj' split_eq rfl
        cases last_eq
        have last_keeps : last.KeepsLimit := all_keep last (by simp)
        have others_keep : ∀ c ∈ others, c.KeepsLimit :=
          fun c c_mem => all_keep c (List.mem_append_left [last] c_mem)
        exact Or.inr ⟨last_keeps, before, change, others, rfl, loads, others_keep⟩

/-- Reading a document that gives no more than a limit of zero, or stored settings with that
    limit, makes the limit zero. -/
theorem limit_zero_loaded :
    (after [.ofDocument (.object [("expansion_limit", .natural 0)])]).expansionLimit = 0 ∧
      (after [.ofBytes [0x00, 0x0A, 0x00]]).expansionLimit = 0 ∧
      ¬ ∀ changes, 0 < (after changes).expansionLimit := by
  have from_document :
      (after [.ofDocument (.object [("expansion_limit", .natural 0)])]).expansionLimit = 0 := by
    decide
  -- the bytes are the stored form of settings that differ from the defaults in the limit only
  have stored : toBytes { expansionLimit := 0 } = [0x00, 0x0A, 0x00] := by
    cbv
  have loads : (Change.ofBytes [0x00, 0x0A, 0x00]).LoadsZero := by
    rw [← stored]
    exact Change.loadsZero_toBytes.2 rfl
  have from_bytes : (after [.ofBytes [0x00, 0x0A, 0x00]]).expansionLimit = 0 :=
    (Change.limit_apply {} _).2 (Or.inl loads)
  refine ⟨from_document, from_bytes, ?_⟩
  intro always
  have positive := always [.ofDocument (.object [("expansion_limit", .natural 0)])]
  rw [from_document] at positive
  exact absurd positive (by decide)

end Settings

end PatternSampler
