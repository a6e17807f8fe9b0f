import PatternSampler.Proofs.Alphabet

/-! # Values and their symbols

  The symbols of a value are symbols of the alphabet of its mode, and every list of such
  symbols is that of a value (`symbols_encode`). In both modes all symbols are characters, and
  every shorthand stands for a symbol at least.
-/

namespace PatternSampler

namespace Mode

variable {m : Mode}

/-- Making a value of its own symbols gives it back. -/
theorem encode_symbols (value : m.Value) : m.encode (m.symbols value) = value := by
  cases m with
  | text =>
    have chars_eq : (value.toList.map Symbol.ofChar).filterMap Symbol.char? = value.toList := by
      rw [List.filterMap_map]
      show value.toList.filterMap (fun c => Symbol.char? (Symbol.ofChar c)) = value.toList
      simp only [Symbol.char?_ofChar, List.filterMap_some]
    show String.ofList ((value.toList.map Symbol.ofChar).filterMap Symbol.char?) = value
    rw [chars_eq, String.ofList_toList]
  | bytes =>
    have byte_eq : ∀ b : UInt8, Symbol.byte? (Symbol.ofByte b) = some b := by
      intro b
      have lt : (Symbol.ofByte b).toNat < 256 := by
        simpa [Symbol.ofByte] using b.toNat_lt
      have same : (Symbol.ofByte b).toUInt8 = b := by
        simp [Symbol.ofByte]
      unfold Symbol.byte?
      rw [if_pos lt, same]
    show (value.map Symbol.ofByte).filterMap Symbol.byte? = value
    rw [List.filterMap_map]
    show value.filterMap (fun b => Symbol.byte? (Symbol.ofByte b)) = value
    simp only [byte_eq, List.filterMap_some]

variable [UnicodeClasses]

theorem mem_full_text {x : Symbol} : x ∈ text.alphabet.full ↔ (Symbol.char? x).isSome := by
  -- the gap between the two intervals is that of the surrogates
  have valid : x ∈ text.alphabet.full ↔ x.isValidChar := by
    simp only [alphabet, Alphabet.text, SymbolSet.mem_mk, List.mem_cons, List.not_mem_nil, or_false,
      exists_eq_or_imp, exists_eq_left, Interval.covers_iff, UInt32.isValidChar, Nat.isValidChar]
    have surrogates : (0xD7FF : UInt32).toNat = 0xD7FF ∧ (0xE000 : UInt32).toNat = 0xE000 ∧
        (0x10FFFF : UInt32).toNat = 0x10FFFF ∧ (0 : UInt32).toNat = 0 := by decide
    omega
  rw [valid]
  by_cases h : x.isValidChar <;> simp [Symbol.char?, h]

theorem mem_full_bytes {x : Symbol} : x ∈ bytes.alphabet.full ↔ x.toNat < 256 := by
  simp only [alphabet, Alphabet.bytes, SymbolSet.mem_mk, List.mem_singleton, exists_eq_left,
    Interval.covers_iff]
  have ends : (0xFF : UInt32).toNat = 255 ∧ (0 : UInt32).toNat = 0 := by decide
  omega

/-- ASCII symbols belong to both modes. -/
theorem mem_full_of_ascii (m : Mode) {x : Symbol} (ascii : x.toNat < 128) :
    x ∈ m.alphabet.full := by
  cases m with
  | text =>
    apply mem_full_text.2
    have valid : x.isValidChar := Or.inl (by omega)
    simp [Symbol.char?, valid]
  | bytes => exact mem_full_bytes.2 (by omega)

/-- Among ASCII symbols the wide readings of both modes are the narrow ones. -/
theorem mem_extent_of_ascii (m : Mode) {k : CharClass} {x : Symbol} (ascii : x.toNat < 128) :
    x ∈ m.alphabet.extent k ↔ x ∈ k.ascii := by
  cases m with
  | text => exact UnicodeClasses.mem_iff_mem_ascii k x ascii
  | bytes => exact Iff.rfl

/-- Every symbol of text or of bytes is a character. -/
theorem isSome_char? {x : Symbol} (h : x ∈ m.alphabet.full) : (Symbol.char? x).isSome := by
  cases m with
  | text => exact mem_full_text.1 h
  | bytes =>
    have lt := mem_full_bytes.1 h
    have valid : x.isValidChar := Or.inl (by omega)
    simp [Symbol.char?, valid]

/-- The symbols of a value are in the alphabet of its mode. -/
theorem symbols_mem_full (value : m.Value) : ∀ s ∈ m.symbols value, s ∈ m.alphabet.full := by
  intro s s_mem
  cases m with
  | text =>
    obtain ⟨c, -, rfl⟩ := List.mem_map.1 s_mem
    exact mem_full_text.2 (by simp)
  | bytes =>
    obtain ⟨b, -, rfl⟩ := List.mem_map.1 s_mem
    refine mem_full_bytes.2 ?_
    simpa [Symbol.ofByte] using b.toNat_lt

/-- Nothing is left out of a list of symbols of the alphabet when it is made a value. -/
theorem symbols_encode {symbols : List Symbol} (alphabetic : ∀ s ∈ symbols, s ∈ m.alphabet.full) :
    m.symbols (m.encode symbols) = symbols := by
  induction symbols with
  | nil => cases m <;> rfl
  | cons s rest ih =>
    have in_full := alphabetic s (by simp)
    have rest_eq := ih fun x x_mem => alphabetic x (List.mem_cons_of_mem s x_mem)
    cases m with
    | text =>
      obtain ⟨c, character⟩ := Option.isSome_iff_exists.1 (mem_full_text.1 in_full)
      simp only [Mode.symbols, encode, String.toList_ofList] at rest_eq ⊢
      rw [List.filterMap_cons_some character, List.map_cons, rest_eq,
        Symbol.char?_eq_some_iff.1 character]
    | bytes =>
      have lt := mem_full_bytes.1 in_full
      have byte_eq : Symbol.byte? s = some s.toUInt8 := if_pos lt
      have symbol_eq : Symbol.ofByte s.toUInt8 = s := by
        apply UInt32.toNat_inj.1
        simp [Symbol.ofByte, Nat.mod_eq_of_lt lt]
      simp only [Mode.symbols, encode] at rest_eq ⊢
      rw [List.filterMap_cons_some byte_eq, List.map_cons, rest_eq, symbol_eq]

end Mode

/-! ## Representatives -/

namespace Shorthand

/-- A symbol that suits a shorthand under both readings of its class. -/
def representative : Shorthand → Symbol
  | ⟨.digit, false⟩ => .ofChar '0'
  | ⟨.word, false⟩ => .ofChar 'a'
  | ⟨.space, false⟩ => .ofChar ' '
  -- no digit, no letter and no space
  | ⟨_, true⟩ => .ofChar '!'

theorem representative_mem [UnicodeClasses] (m : Mode) (kind : Shorthand) :
    kind.representative ∈ m.alphabet.resolve kind := by
  have ascii : kind.representative.toNat < 128 := by
    rcases kind with ⟨_ | _ | _, _ | _⟩ <;> decide
  have narrow : Alphabet.Belongs CharClass.ascii kind kind.representative := by
    unfold Alphabet.Belongs
    rcases kind with ⟨_ | _ | _, _ | _⟩ <;> decide
  -- the representative is ASCII, so both readings say the same of it
  have wide : Alphabet.Belongs m.alphabet.extent kind kind.representative := by
    unfold Alphabet.Belongs at narrow ⊢
    rwa [m.mem_extent_of_ascii ascii]
  exact (Alphabet.mem_resolve (Alphabet.lawful_mode m)).2
    ⟨m.mem_full_of_ascii ascii, narrow, wide⟩

end Shorthand

end PatternSampler
