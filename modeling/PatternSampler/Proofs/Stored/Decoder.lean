import Mathlib.Tactic.Ring
import PatternSampler.Stored.Tree

/-! # Stored values are read back

  `Restores read bytes value` says that reading takes the value off the front of the bytes,
  whatever follows them, and takes nothing more. It goes together with `do`: where one part
  restores a value and the next another, both restore the two from their bytes in a row.

  Each writing function has a lemma that its reading function restores what was written. The
  numbers have to fit their width, and lists and texts have to have a length that fits 64 bits.
-/

namespace PatternSampler.Stored

variable {α β : Type}

/-- Reading takes the value off the front of the bytes and leaves what follows them. -/
def Restores (read : Decoder α) (bytes : List UInt8) (value : α) : Prop :=
  ∀ rest, read (bytes ++ rest) = .ok (value, rest)

namespace Restores

theorem pure (value : α) : Restores (pure value) [] value := fun _ => rfl

theorem bind {first : Decoder α} {next : α → Decoder β} {bytes more : List UInt8} {a : α} {b : β}
    (restores_first : Restores first bytes a) (restores_next : Restores (next a) more b) :
    Restores (first >>= next) (bytes ++ more) b := by
  intro rest
  rw [List.append_assoc]
  show (first (bytes ++ (more ++ rest)) >>= fun p => next p.1 p.2) = _
  rw [restores_first]
  exact restores_next rest

/-- A value that is only put into a form takes no more bytes. -/
theorem map {read : Decoder α} {bytes : List UInt8} {a : α} (f : α → β)
    (restores : Restores read bytes a) :
    Restores (read >>= fun a => Pure.pure (f a)) bytes (f a) := by
  have both : Restores (read >>= fun a => Pure.pure (f a)) (bytes ++ []) (f a) :=
    restores.bind (pure (f a))
  rwa [List.append_nil] at both

end Restores

/-! ## Numbers -/

/-- A byte below 128 is the last one of a number. -/
theorem restores_last {lastByte n x : Nat} (one_byte : x < 128)
    (fits : n = 0 → x ≤ lastByte) :
    Restores (readDigits lastByte (n + 1)) [UInt8.ofNat x] x := by
  have byte_eq : (UInt8.ofNat x).toNat = x := by
    rw [UInt8.toNat_ofNat']
    exact Nat.mod_eq_of_lt (by omega)
  have room : ¬ (n = 0 ∧ lastByte < x) := by
    intro exceeded
    have x_le := fits exceeded.1
    omega
  intro rest
  unfold readDigits
  show (if (UInt8.ofNat x).toNat < 128 then _ else _ : Decoder Nat) rest = _
  rw [byte_eq, if_pos one_byte, if_neg room]
  rfl

/-- A byte of 128 or more holds the lowest seven bits, and the others follow. -/
theorem Restores.more {lastByte n x : Nat} {bytes : List UInt8}
    (high : Restores (readDigits lastByte n) bytes (x / 128)) :
    Restores (readDigits lastByte (n + 1)) (UInt8.ofNat (x % 128 + 128) :: bytes) x := by
  have byte_eq : (UInt8.ofNat (x % 128 + 128)).toNat = x % 128 + 128 := by
    rw [UInt8.toNat_ofNat']
    exact Nat.mod_eq_of_lt (by omega)
  have more_follow : ¬ x % 128 + 128 < 128 := by omega
  have value_eq : x % 128 + 128 - 128 + 128 * (x / 128) = x := by omega
  intro rest
  unfold readDigits
  show (if (UInt8.ofNat (x % 128 + 128)).toNat < 128 then _ else _ : Decoder Nat)
    (bytes ++ rest) = _
  rw [byte_eq, if_neg more_follow, high.map (fun h => x % 128 + 128 - 128 + 128 * h) rest, value_eq]

/-- A number is read back if it needs no more bytes than there are, and its last byte is not
    too large if it needs them all. -/
theorem restores_readDigits {lastByte : Nat} (small : lastByte < 128) (n x : Nat)
    (fits : x < 128 ^ n * (lastByte + 1)) :
    Restores (readDigits lastByte (n + 1)) (putNumber x) x := by
  induction n generalizing x with
  | zero =>
    have one_byte : x < 128 := by omega
    unfold putNumber
    rw [if_pos one_byte]
    exact restores_last one_byte fun _ => by omega
  | succ n ih =>
    unfold putNumber
    by_cases one_byte : x < 128
    · rw [if_pos one_byte]
      exact restores_last one_byte nofun
    · -- what is left after the lowest seven bits has one byte less to fit into
      rw [if_neg one_byte]
      have high_fits : x / 128 < 128 ^ n * (lastByte + 1) := by
        rw [Nat.div_lt_iff_lt_mul (by decide)]
        calc x < 128 ^ (n + 1) * (lastByte + 1) := fits
          _ = 128 ^ n * (lastByte + 1) * 128 := by ring
      exact (ih (x / 128) high_fits).more

theorem restores_readNumber_word {x : Nat} (fits : x < 2 ^ 32) :
    Restores (readNumber .word) (putNumber x) x := by
  -- four bytes of seven bits, and a fifth with four bits
  have room : x < 128 ^ 4 * (15 + 1) := by
    norm_num at fits ⊢
    exact fits
  exact restores_readDigits (by decide) 4 x room

theorem restores_readNumber_long {x : Nat} (fits : x < 2 ^ 64) :
    Restores (readNumber .long) (putNumber x) x := by
  -- nine bytes of seven bits, and a tenth with one bit
  have room : x < 128 ^ 9 * (1 + 1) := by
    norm_num at fits ⊢
    exact fits
  exact restores_readDigits (by decide) 9 x room

theorem restores_readWord (x : UInt32) : Restores readWord (putWord x) x := by
  have read := (restores_readNumber_word x.toNat_lt).map UInt32.ofNat
  rwa [UInt32.ofNat_toNat] at read

theorem restores_readLong (x : UInt64) : Restores readLong (putLong x) x := by
  have read := (restores_readNumber_long x.toNat_lt).map UInt64.ofNat
  rwa [UInt64.ofNat_toNat] at read

/-! ## Alternatives -/

/-- The alternative at a number of a table. -/
theorem restores_readTag {table : List α} {n : Nat} {a : α} (fits : n < 2 ^ 32)
    (found : table[n]? = some a) : Restores (readTag table) (putNumber n) a := by
  intro rest
  unfold readTag
  show (readNumber .word (putNumber n ++ rest) >>= _) = _
  rw [restores_readNumber_word fits rest]
  simp only [bind, Except.bind, found]
  rfl

theorem restores_readBool (b : Bool) : Restores readBool (putBool b) b := by
  cases b <;> exact fun _ => rfl

theorem restores_readOption {read : Decoder α} {put : α → List UInt8} {value : Option α}
    (restores : ∀ a, value = some a → Restores read (put a) a) :
    Restores (readOption read) (putOption put value) value := by
  cases value with
  | none => exact fun _ => rfl
  | some a => exact (restores a rfl).map some

/-! ## Lists and texts -/

theorem restores_readMany {read : Decoder α} {put : α → List UInt8} {items : List α}
    (restores : ∀ a ∈ items, Restores read (put a) a) :
    Restores (readMany read items.length) (items.flatMap put) items := by
  induction items with
  | nil => exact fun _ => rfl
  | cons a items ih =>
    have others := ih fun b b_mem => restores b (List.mem_cons_of_mem a b_mem)
    rw [List.flatMap_cons]
    exact (restores a (by simp)).bind (others.map fun others => a :: others)

theorem restores_readList {read : Decoder α} {put : α → List UInt8} {items : List α}
    (fits : items.length < 2 ^ 64) (restores : ∀ a ∈ items, Restores read (put a) a) :
    Restores (readList read) (putList put items) items :=
  (restores_readNumber_long fits).bind (restores_readMany restores)

theorem restores_readBytes (bytes : List UInt8) :
    Restores (readBytes bytes.length) bytes bytes := by
  intro rest
  have enough : bytes.length ≤ (bytes ++ rest).length := by simp
  show (if bytes.length ≤ (bytes ++ rest).length then _ else _) = _
  rw [if_pos enough, List.take_left, List.drop_left]

/-- Listing the bytes of an array one by one gives the list that the array holds. -/
theorem toList_eq_data (bytes : ByteArray) : bytes.toList = bytes.data.toList := by
  have loop_eq : ∀ (i : Nat) (seen : List UInt8),
      ByteArray.toList.loop bytes i seen = seen.reverse ++ bytes.data.toList.drop i := by
    intro i seen
    fun_induction ByteArray.toList.loop bytes i seen with
    | case1 i seen inside ih =>
      have in_list : i < bytes.data.toList.length := by simpa using inside
      have byte_eq : bytes.get! i = bytes.data.toList[i] := by
        rw [Array.getElem_toList]
        exact getElem!_pos bytes.data i (by simpa using inside)
      rw [ih, List.drop_eq_getElem_cons in_list, List.reverse_cons, byte_eq, List.append_assoc,
        List.singleton_append]
    | case2 i seen past =>
      have length_le : bytes.data.toList.length ≤ i := by simpa using past
      rw [List.drop_eq_nil_of_le length_le, List.append_nil]
  rw [ByteArray.toList, loop_eq, List.reverse_nil, List.nil_append, List.drop_zero]

/-- The UTF-8 bytes of a text are those of the text. -/
theorem fromUTF8?_toUTF8 (s : String) :
    String.fromUTF8? (.mk s.toUTF8.toList.toArray) = some s := by
  rw [toList_eq_data, Array.toArray_toList]
  exact dif_pos s.isValidUTF8

theorem restores_readText {s : String} (fits : s.utf8ByteSize < 2 ^ 64) :
    Restores readText (putText s) s := by
  have length_eq : s.utf8ByteSize = s.toUTF8.toList.length := by
    rw [toList_eq_data]
    rfl
  unfold readText putText
  refine (restores_readNumber_long fits).bind ?_
  intro rest
  show (readBytes s.utf8ByteSize (s.toUTF8.toList ++ rest) >>= _) = _
  rw [length_eq, restores_readBytes s.toUTF8.toList rest]
  simp only [bind, Except.bind, fromUTF8?_toUTF8]
  rfl

end PatternSampler.Stored
