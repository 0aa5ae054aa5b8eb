-- Words of one width put into words of another: the bits of the words, the highest first, are
-- one row, and the row is cut into groups of the new width.
import Mathlib.Data.List.Range
import Mathlib.Data.Nat.Bitwise

namespace bit_groups

/-! ## The bits of a word -/

/-- The `width` lowest bits of `n`, the highest of them first. -/
def bits : (width : Nat) → (n : Nat) → List Bool
  | 0, _ => []
  | width + 1, n => n.testBit width :: bits width n

/-- The number that a row of bits stands for. -/
def value : List Bool → Nat
  | [] => 0
  | b :: row => b.toNat * 2 ^ row.length + value row

@[simp]
theorem length_bits (width n : Nat) : (bits width n).length = width := by
  induction width with
  | zero => rfl
  | succ width ih => simp [bits, ih]

theorem value_bits (width n : Nat) : value (bits width n) = n % 2 ^ width := by
  induction width with
  | zero => simp [bits, value, Nat.mod_one]
  | succ width ih =>
    rw [bits, value, length_bits, ih, Nat.toNat_testBit, Nat.mod_pow_succ, Nat.mul_comm,
      Nat.add_comm]

theorem value_lt (row : List Bool) : value row < 2 ^ row.length := by
  induction row with
  | nil => simp [value]
  | cons b row ih =>
    rw [value, List.length_cons, pow_succ]
    cases b <;> simp <;> omega

/-- The low bits do not see what stands above them. -/
theorem bits_two_pow_mul_add {width k : Nat} (h : width ≤ k) (a : Nat) {n : Nat}
    (hn : n < 2 ^ k) : bits width (2 ^ k * a + n) = bits width n := by
  induction width with
  | zero => rfl
  | succ width ih =>
    rw [bits, bits, ih (by omega), Nat.testBit_two_pow_mul_add a hn, if_pos (by omega)]

theorem bits_value (row : List Bool) : bits row.length (value row) = row := by
  induction row with
  | nil => rfl
  | cons b row ih =>
    rw [List.length_cons, bits, value, Nat.mul_comm,
      bits_two_pow_mul_add (Nat.le_refl _) _ (value_lt row), ih,
      Nat.testBit_two_pow_mul_add _ (value_lt row), if_neg (by omega), Nat.sub_self]
    cases b <;> rfl

/-! ## Groups of a row -/

/-- The group `i` of `width` bits, with zeros where the row has ended. -/
def group (width : Nat) (row : List Bool) (i : Nat) : List Bool :=
  (List.range width).map fun j => row.getD (i * width + j) false

/-- The groups of the row, the last one filled with zeros. -/
def filled (width : Nat) (row : List Bool) : List (List Bool) :=
  (List.range ((row.length + (width - 1)) / width)).map (group width row)

/-- The groups that the row fills; the bits that are left are dropped. -/
def complete (width : Nat) (row : List Bool) : List (List Bool) :=
  (List.range (row.length / width)).map (group width row)

@[simp]
theorem length_group (width : Nat) (row : List Bool) (i : Nat) :
    (group width row i).length = width := by
  simp [group]

theorem flatten_groups (width : Nat) (row : List Bool) (n : Nat) :
    ((List.range n).map (group width row)).flatten =
      (List.range (n * width)).map fun k => row.getD k false := by
  induction n with
  | zero => simp
  | succ n ih =>
    rw [List.range_succ, List.map_append, List.flatten_append, ih, Nat.succ_mul, List.range_add,
      List.map_append]
    simp [group]

theorem getD_flatten_filled {width : Nat} (hw : 0 < width) (row : List Bool) (k : Nat) :
    (filled width row).flatten.getD k false = row.getD k false := by
  unfold filled
  rw [flatten_groups]
  have hend : row.length ≤ (row.length + (width - 1)) / width * width := by
    have hdiv := Nat.div_add_mod (row.length + (width - 1)) width
    have hlt := Nat.mod_lt (row.length + (width - 1)) hw
    rw [Nat.mul_comm] at hdiv
    omega
  by_cases hk : k < (row.length + (width - 1)) / width * width
  · simp [hk]
  · rw [List.getD_eq_default _ _ (by simp; omega), List.getD_eq_default _ _ (by omega)]

theorem length_flatten_filled (width : Nat) (row : List Bool) :
    (filled width row).flatten.length = (row.length + (width - 1)) / width * width := by
  simp [filled, flatten_groups]

/-- What the filling adds is less than a group of the wider words, so it is dropped again. -/
theorem complete_filled {width wide : Nat} (hw : 0 < width) (hle : width ≤ wide) {row : List Bool}
    (hrow : wide ∣ row.length) :
    complete wide (filled width row).flatten = complete wide row := by
  obtain ⟨n, hn⟩ := hrow
  have hcount : (row.length + (width - 1)) / width * width / wide = row.length / wide := by
    have hdiv := Nat.div_add_mod (row.length + (width - 1)) width
    have hlt := Nat.mod_lt (row.length + (width - 1)) hw
    rw [Nat.mul_comm] at hdiv
    rw [hn, Nat.mul_div_cancel_left n (by omega)]
    rw [hn] at hdiv hlt
    apply Nat.div_eq_of_lt_le
    · rw [Nat.mul_comm]
      omega
    · rw [Nat.succ_mul, Nat.mul_comm n]
      omega
  unfold complete
  rw [length_flatten_filled, hcount]
  apply List.map_congr_left
  intro i _
  simp only [group, getD_flatten_filled hw]

theorem group_append_zero (word row : List Bool) : group word.length (word ++ row) 0 = word := by
  apply List.ext_getElem (by simp)
  intro i hi hi'
  simp [group, List.getElem?_append_left hi', List.getElem?_eq_getElem hi']

theorem group_append_succ (word row : List Bool) (i : Nat) :
    group word.length (word ++ row) (i + 1) = group word.length row i := by
  apply List.map_congr_left
  intro j _
  rw [Nat.succ_mul, List.getD_append_right _ _ _ _ (by omega)]
  congr 1
  omega

theorem complete_append {word : List Bool} (hw : 0 < word.length) (row : List Bool) :
    complete word.length (word ++ row) = word :: complete word.length row := by
  unfold complete
  rw [List.length_append, Nat.add_div_left _ hw, List.range_succ_eq_map, List.map_cons,
    List.map_map, group_append_zero]
  simp only [Function.comp_def, group_append_succ]

/-- The groups of words of one width are the words. -/
theorem complete_flatMap {α : Type} {width : Nat} (hw : 0 < width) (words : List α)
    (word : α → List Bool) (h : ∀ a, (word a).length = width) :
    complete width (words.flatMap word) = words.map word := by
  induction words with
  | nil => simp [complete]
  | cons a words ih =>
    have happend := complete_append (by rw [h a]; exact hw) (words.flatMap word)
    rw [h] at happend
    rw [List.flatMap_cons, happend, ih, List.map_cons]

end bit_groups
