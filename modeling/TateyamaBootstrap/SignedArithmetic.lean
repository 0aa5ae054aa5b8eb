-- Signed arithmetic on 64 bits in which an overflow is no value, as it is in C++, and the
-- rounding of an integer to a multiple of a unit by a division towards zero.
import Mathlib.Algebra.Group.Int.Defs

namespace signed_arithmetic

/-! ## Operations that may overflow -/

/-- The word for an integer. There is none when 64 bits do not hold it. -/
def of_int (n : Int) : Option Int64 :=
  if -2 ^ 63 ≤ n ∧ n < 2 ^ 63 then some (Int64.ofInt n) else none

def add (a b : Int64) : Option Int64 := of_int (a.toInt + b.toInt)

def sub (a b : Int64) : Option Int64 := of_int (a.toInt - b.toInt)

def mul (a b : Int64) : Option Int64 := of_int (a.toInt * b.toInt)

/-- The division towards zero. -/
def div (a b : Int64) : Option Int64 := if b = 0 then none else of_int (a.toInt.tdiv b.toInt)

theorem of_int_eq_some (n : Int) (c : Int64) : of_int n = some c ↔ c.toInt = n := by
  unfold of_int
  constructor
  · intro h
    split at h
    · rename_i hn
      cases h
      exact Int64.toInt_ofInt_of_le hn.1 hn.2
    · cases h
  · rintro rfl
    rw [if_pos ⟨c.le_toInt, c.toInt_lt⟩, Int64.ofInt_toInt]

theorem exists_toInt_eq (n : Int) : (∃ c : Int64, c.toInt = n) ↔ -2 ^ 63 ≤ n ∧ n < 2 ^ 63 := by
  constructor
  · rintro ⟨c, rfl⟩
    exact ⟨c.le_toInt, c.toInt_lt⟩
  · rintro ⟨hl, hu⟩
    exact ⟨Int64.ofInt n, Int64.toInt_ofInt_of_le hl hu⟩

theorem add_eq_some (a b c : Int64) : add a b = some c ↔ c.toInt = a.toInt + b.toInt :=
  of_int_eq_some _ c

theorem sub_eq_some (a b c : Int64) : sub a b = some c ↔ c.toInt = a.toInt - b.toInt :=
  of_int_eq_some _ c

theorem mul_eq_some (a b c : Int64) : mul a b = some c ↔ c.toInt = a.toInt * b.toInt :=
  of_int_eq_some _ c

theorem div_eq_some (a b c : Int64) (hb : b ≠ 0) :
    div a b = some c ↔ c.toInt = a.toInt.tdiv b.toInt := by
  rw [div, if_neg hb]
  exact of_int_eq_some _ c

/-! ## Rounding to a multiple -/

/-- From half a unit on, `t` goes to the nearest multiple of the unit and a tie goes up. Below
that the division towards zero gives one unit. -/
def round_to (unit t : Int) : Int := ((t - unit / 2).tdiv unit + 1) * unit

variable (unit : Int) {s t : Int}

theorem dvd_round_to (t : Int) : unit ∣ round_to unit t :=
  Int.dvd_mul_left _ _

theorem round_to_mono (hu : 0 < unit) (h : s ≤ t) : round_to unit s ≤ round_to unit t := by
  have hq : (s - unit / 2).tdiv unit ≤ (t - unit / 2).tdiv unit :=
    Int.tdiv_le_tdiv hu (by omega)
  exact Int.mul_le_mul_of_nonneg_right (by omega) (by omega)

theorem unit_le_round_to (hu : 0 < unit) (ht : 0 ≤ t) : unit ≤ round_to unit t := by
  have h0 : round_to unit 0 = unit := by
    have hq : (0 - unit / 2).tdiv unit = 0 := by
      rw [Int.zero_sub, Int.neg_tdiv, Int.tdiv_eq_zero_of_lt (by omega) (by omega), Int.neg_zero]
    rw [round_to, hq, Int.zero_add, Int.one_mul]
  have hm := round_to_mono unit hu ht
  omega

/-- What the division leaves over is at most a unit. -/
theorem round_to_near (hu : 0 < unit) (ht : unit / 2 ≤ t) :
    t - unit / 2 < round_to unit t ∧ round_to unit t ≤ t + (unit - unit / 2) := by
  have hq : (t - unit / 2).tdiv unit = (t - unit / 2) / unit :=
    Int.tdiv_eq_ediv_of_nonneg (by omega)
  have hdiv := Int.ediv_mul_add_emod (t - unit / 2) unit
  have hl := Int.emod_nonneg (t - unit / 2) (by omega : unit ≠ 0)
  have hr := Int.emod_lt_of_pos (t - unit / 2) hu
  rw [round_to, hq, Int.add_mul, Int.one_mul]
  omega

end signed_arithmetic
