import Mathlib.Tactic.Ring
import PatternSampler.Random.Source

/-! # Draws stay in their range

  A number drawn below a bound is below it, for every state of the source. The scaled word is
  below the bound because a word is below the number of words; the carry of the second word
  cannot lead out of the range, because a product that already gives the last number is too
  far from the next one to be corrected (`carry_below`).
-/

namespace PatternSampler.WordSource

variable {σ : Type} [WordSource σ] (s : σ)

/-- A word is below the number of words of its size. -/
theorem draw_lt (width : Width) : (draw s width).1 < width.size := by
  cases width with
  | single => exact (next32 s).1.toNat_lt
  | double => exact (next64 s).1.toNat_lt

/-- A word scaled to a range is below the range. -/
private theorem scaled_lt {word size range : Nat} (word_lt : word < size) (pos : 0 < range) :
    word * range / size < range := by
  apply Nat.div_lt_of_lt_mul
  exact Nat.mul_lt_mul_of_pos_right word_lt pos

/-- Where the correction is considered, the next number is below the range too: the product
    with the greatest word leaves a fraction of at most `size - range`. -/
private theorem carry_below {word size range : Nat} (word_lt : word < size) (pos : 0 < range)
    (close : size - range < word * range % size) : word * range / size + 1 < range := by
  have number_lt := scaled_lt word_lt pos
  have split := Nat.div_add_mod (word * range) size
  have product_le : word * range + range ≤ size * range := by
    calc word * range + range = (word + 1) * range := by ring
      _ ≤ size * range := Nat.mul_le_mul_right range word_lt
  -- if it were not, the product would be less than `range` away from the next multiple
  by_contra last
  have number_eq : word * range / size + 1 = range := by omega
  have size_mul : size * range = size * (word * range / size) + size := by
    conv_lhs => rw [← number_eq]
    ring
  omega

/-- A number drawn below a positive range is below it. -/
theorem below_lt (width : Width) {range : Nat} (pos : 0 < range) :
    (below s width range).1 < range := by
  have word_lt := draw_lt s width
  unfold below
  simp only
  split
  · rename_i close
    split
    · exact carry_below word_lt pos close
    · exact scaled_lt word_lt pos
  · exact scaled_lt word_lt pos

theorem index_lt {count : Nat} (pos : 0 < count) : (index s count).1 < count :=
  below_lt s (.forCount count) pos

/-- A number drawn between two others lies between them. -/
theorem between_bounds (width : Width) {low high : Nat} (le : low ≤ high) :
    low ≤ (between s width low high).1 ∧ (between s width low high).1 ≤ high := by
  have range_pos : 0 < high + 1 - low := by omega
  have offset_lt := below_lt s width range_pos
  unfold between
  simp only
  omega

theorem between32_bounds {low high : UInt32} (le : low ≤ high) :
    low.toNat ≤ (between32 s low high).1.toNat ∧ (between32 s low high).1.toNat ≤ high.toNat := by
  have bounds := between_bounds s .single (UInt32.le_iff_toNat_le.1 le)
  have high_lt := high.toNat_lt
  have toNat_eq : (between32 s low high).1.toNat =
      (between s .single low.toNat high.toNat).1 := by
    unfold between32
    simp only [UInt32.toNat_ofNat']
    omega
  rw [toNat_eq]
  exact bounds

end PatternSampler.WordSource
