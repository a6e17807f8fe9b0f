import Mathlib.Tactic.Ring
import PatternSampler.Random.Source

/-! # Draws can be steered

  Every number in a range is drawn from some source, and what the draw needs for it is a few
  words at the front of the source (`CanDraw`). Since nothing is asked of the words that
  follow, draws can be steered one after the other, and for any words there is a source that
  begins with them (`begins_ofWords`).
-/

namespace PatternSampler.Source

open WordSource

/-! ## Beginnings -/

/-- The next words of a source are the given ones. -/
def Begins (s : Source) : List UInt32 → Prop
  | [] => True
  | word :: rest => s.next32.1 = word ∧ s.next32.2.Begins rest

/-- The source after as many words as are given. -/
def after (s : Source) : List UInt32 → Source
  | [] => s
  | _ :: rest => s.next32.2.after rest

theorem begins_append {s : Source} {first second : List UInt32} :
    s.Begins (first ++ second) ↔ s.Begins first ∧ (s.after first).Begins second := by
  induction first generalizing s with
  | nil => simp [Begins, after]
  | cons word rest ih => simp [Begins, after, ih, and_assoc]

theorem after_append {s : Source} {first second : List UInt32} :
    s.after (first ++ second) = (s.after first).after second := by
  induction first generalizing s with
  | nil => rfl
  | cons word rest ih => exact ih

/-- A source that begins with given words. -/
def ofWords (words : List UInt32) : Source := ⟨fun i => words.getD i 0, 0⟩

theorem begins_ofWords (words : List UInt32) : (ofWords words).Begins words := by
  -- said of the words from any place on, which is what the recursion goes through
  have from_place : ∀ (rest : List UInt32) (place : Nat), words.drop place = rest →
      Begins ⟨fun i => words.getD i 0, place⟩ rest := by
    intro rest
    induction rest with
    | nil => exact fun _ _ => trivial
    | cons word rest ih =>
      intro place drop_eq
      have word_at : words[place]? = some word := by
        rw [← List.head?_drop, drop_eq, List.head?_cons]
      have rest_from : words.drop (place + 1) = rest := by
        rw [← List.tail_drop, drop_eq, List.tail_cons]
      refine ⟨?_, ih (place + 1) rest_from⟩
      show words.getD place 0 = word
      rw [List.getD_eq_getElem?_getD, word_at, Option.getD_some]
  exact from_place words 0 rfl

/-! ## Steering -/

/-- There are words that make a draw give a value, whatever follows them. -/
def CanDraw {α : Type} (draw : Source → α × Source) (value : α) : Prop :=
  ∃ words, ∀ s : Source, s.Begins words → draw s = (value, s.after words)

theorem canDraw_word (width : Width) {word : Nat} (word_lt : word < width.size) :
    CanDraw (draw · width) word := by
  cases width with
  | single =>
    refine ⟨[UInt32.ofNat word], fun s begins => ?_⟩
    have word_eq : (UInt32.ofNat word).toNat = word := by
      rw [UInt32.toNat_ofNat']
      exact Nat.mod_eq_of_lt word_lt
    show (s.next32.1.toNat, s.next32.2) = _
    rw [begins.1, word_eq]
    rfl
  | double =>
    -- the low half comes first
    refine ⟨[UInt32.ofNat (word % 2 ^ 32), UInt32.ofNat (word / 2 ^ 32)], fun s begins => ?_⟩
    have halves : ((UInt32.ofNat (word % 2 ^ 32)).toUInt64 |||
        (UInt32.ofNat (word / 2 ^ 32)).toUInt64 <<< 32).toNat = word := by
      have word_lt' : word < 2 ^ 64 := word_lt
      have low_eq : word % 2 ^ 32 % 2 ^ 32 = word % 2 ^ 32 := Nat.mod_mod _ _
      have high_eq : word / 2 ^ 32 % 2 ^ 32 = word / 2 ^ 32 := Nat.mod_eq_of_lt (by omega)
      have shifted_eq : word / 2 ^ 32 * 2 ^ 32 % 2 ^ 64 = word / 2 ^ 32 * 2 ^ 32 :=
        Nat.mod_eq_of_lt (by omega)
      have low_lt : word % 2 ^ 32 < 2 ^ 32 := Nat.mod_lt _ (by decide)
      simp only [UInt64.toNat_or, UInt64.toNat_shiftLeft, UInt32.toNat_toUInt64,
        UInt32.toNat_ofNat', low_eq, high_eq, Nat.shiftLeft_eq]
      show _ ||| word / 2 ^ 32 * 2 ^ 32 % 2 ^ 64 = word
      rw [shifted_eq, Nat.or_comm, Nat.mul_comm, ← Nat.two_pow_add_eq_or_of_lt low_lt]
      exact Nat.div_add_mod word (2 ^ 32)
    show ((s.next32.1.toUInt64 ||| s.next32.2.next32.1.toUInt64 <<< 32).toNat, _) = _
    rw [begins.1, begins.2.1, halves]
    rfl

/-- A word that is scaled to a number draws it: a second word of zero carries nothing, whether
    or not it is taken. -/
theorem canDraw_below_of_word {width : Width} {range word : Nat} (word_lt : word < width.size) :
    CanDraw (below · width range) (word * range / width.size) := by
  obtain ⟨words, first⟩ := canDraw_word width word_lt
  have size_pos : 0 < width.size := by cases width <;> decide
  obtain ⟨zeros, second⟩ := canDraw_word width size_pos
  by_cases close : width.size - range < word * range % width.size
  · refine ⟨words ++ zeros, fun s begins => ?_⟩
    obtain ⟨begins_first, begins_second⟩ := begins_append.1 begins
    have no_carry : ¬ width.size ≤ word * range % width.size := by
      have := Nat.mod_lt (word * range) size_pos
      omega
    unfold below
    simp only [first s begins_first, second _ begins_second, close, if_true, Nat.zero_mul,
      Nat.zero_div, Nat.add_zero, no_carry, if_false, after_append]
  · refine ⟨words, fun s begins => ?_⟩
    unfold below
    simp only [first s begins, close, if_false]

theorem canDraw_below_zero (width : Width) (range : Nat) :
    CanDraw (below · width range) 0 := by
  have size_pos : 0 < width.size := by cases width <;> decide
  have draws : CanDraw (below · width range) (0 * range / width.size) :=
    canDraw_below_of_word size_pos
  rwa [Nat.zero_mul, Nat.zero_div] at draws

/-- Every number below a range is drawn, if there are as many words as numbers. -/
theorem canDraw_below {width : Width} {range number : Nat} (number_lt : number < range)
    (range_le : range ≤ width.size) : CanDraw (below · width range) number := by
  -- the least word whose product with the range is not below the number's share
  let word := (number * width.size + range - 1) / range
  have range_pos : 0 < range := Nat.zero_lt_of_lt number_lt
  have product_le : word * range ≤ number * width.size + range - 1 := Nat.div_mul_le_self _ _
  have lt_product : number * width.size + range - 1 < word * range + range :=
    Nat.lt_div_mul_add range_pos
  have share : number * width.size + width.size ≤ range * width.size := by
    rw [← Nat.succ_mul]
    exact Nat.mul_le_mul_right width.size number_lt
  have word_lt : word < width.size := by
    apply Nat.lt_of_mul_lt_mul_right (a := range)
    rw [Nat.mul_comm width.size range]
    omega
  have scaled : word * range / width.size = number := by
    apply Nat.div_eq_of_lt_le
    · omega
    · rw [Nat.succ_mul]
      omega
  rw [← scaled]
  exact canDraw_below_of_word word_lt

theorem canDraw_index {count index : Nat} (index_lt : index < count) (count_le : count < 2 ^ 64) :
    CanDraw (WordSource.index · count) index := by
  have count_le_size : count ≤ (Width.forCount count).size := by
    unfold Width.forCount
    split
    · rename_i small
      exact Nat.le_of_lt small
    · exact Nat.le_of_lt count_le
  exact canDraw_below index_lt count_le_size

theorem canDraw_low (width : Width) (low high : Nat) : CanDraw (between · width low high) low := by
  obtain ⟨words, draws⟩ := canDraw_below_zero width (high + 1 - low)
  refine ⟨words, fun s begins => ?_⟩
  unfold between
  simp only [draws s begins, Nat.add_zero]

/-- Every index of a row is drawn from the range of its indices. -/
theorem canDraw_between {width : Width} {count index : Nat} (index_lt : index < count)
    (count_le : count ≤ width.size) : CanDraw (between · width 0 (count - 1)) index := by
  obtain ⟨words, draws⟩ := canDraw_below index_lt count_le
  have range_eq : count - 1 + 1 - 0 = count := by omega
  refine ⟨words, fun s begins => ?_⟩
  unfold between
  simp only [range_eq, draws s begins, Nat.zero_add]

theorem canDraw_low32 (low high : UInt32) : CanDraw (between32 · low high) low := by
  obtain ⟨words, draws⟩ := canDraw_low .single low.toNat high.toNat
  refine ⟨words, fun s begins => ?_⟩
  unfold between32
  simp only [draws s begins, UInt32.ofNat_toNat]

end PatternSampler.Source
