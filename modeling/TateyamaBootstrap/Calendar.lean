-- The days of the Gregorian calendar from 1970 on: the broken-down time of a number of
-- seconds, its text, and the reading of both back.
import TateyamaBootstrap.JsonTexts
import Mathlib.Algebra.GroupWithZero.Nat

open json

namespace calendar

/-! ## Years and months -/

def leap (year : Nat) : Bool := year % 4 = 0 && (year % 100 ≠ 0 || year % 400 = 0)

def year_days (year : Nat) : Nat := if leap year then 366 else 365

def month_days (year : Nat) : List Nat :=
  [31, if leap year then 29 else 28, 31, 30, 31, 30, 31, 31, 30, 31, 30, 31]

/-- The year of a day that stands `days` days behind the start of `year`, and the days since the
start of that year. -/
def year_of : (fuel year days : Nat) → Nat × Nat
  | 0, year, days => (year, days)
  | fuel + 1, year, days =>
    if days < year_days year then (year, days) else year_of fuel (year + 1) (days - year_days year)

/-- The month among those whose lengths are listed, and the days since the start of that month. -/
def month_of : (lengths : List Nat) → (month days : Nat) → Nat × Nat
  | [], month, days => (month, days)
  | length :: lengths, month, days =>
    if days < length then (month, days) else month_of lengths (month + 1) (days - length)

structure Time where
  year : Nat
  month : Nat
  day : Nat
  hour : Nat
  minute : Nat
  second : Nat
deriving DecidableEq, Repr

/-- The time of a number of seconds since the start of 1970. -/
def gmtime (seconds : Nat) : Time :=
  let days := seconds / 86400
  let year := year_of days 1970 days
  let month := month_of (month_days year.1) 1 year.2
  { year := year.1, month := month.1, day := month.2 + 1, hour := seconds % 86400 / 3600,
    minute := seconds % 3600 / 60, second := seconds % 60 }

def days_before_year (year : Nat) : Nat :=
  ((List.range (year - 1970)).map fun i => year_days (1970 + i)).sum

def days_before_month (year month : Nat) : Nat := ((month_days year).take (month - 1)).sum

/-- The seconds since the start of 1970. -/
def timegm (t : Time) : Nat :=
  (days_before_year t.year + days_before_month t.year t.month + (t.day - 1)) * 86400 +
    t.hour * 3600 + t.minute * 60 + t.second

theorem year_days_pos (year : Nat) : 365 ≤ year_days year := by
  unfold year_days
  split <;> omega

theorem days_before_year_succ {year : Nat} (h : 1970 ≤ year) :
    days_before_year (year + 1) = days_before_year year + year_days year := by
  unfold days_before_year
  rw [show year + 1 - 1970 = year - 1970 + 1 by omega, List.range_succ, List.map_append,
    List.sum_append, List.map_singleton, List.sum_singleton, Nat.add_sub_cancel' h]

theorem year_of_days (fuel : Nat) {year : Nat} (days : Nat) (h : 1970 ≤ year) :
    days_before_year (year_of fuel year days).1 + (year_of fuel year days).2 =
      days_before_year year + days := by
  induction fuel generalizing year days with
  | zero => rfl
  | succ fuel ih =>
    unfold year_of
    split
    · rfl
    · rw [ih _ (by omega), days_before_year_succ h]
      omega

theorem year_of_lt {fuel : Nat} (year : Nat) {days : Nat} (h : days ≤ fuel) :
    (year_of fuel year days).2 < year_days (year_of fuel year days).1 := by
  induction fuel generalizing year days with
  | zero =>
    have hpos := year_days_pos year
    simp only [year_of]
    omega
  | succ fuel ih =>
    have hpos := year_days_pos year
    unfold year_of
    split
    · assumption
    · exact ih (year + 1) (by omega)

/-- Each year has 365 days or more. -/
theorem year_of_le (fuel year days : Nat) :
    (year_of fuel year days).1 * 365 + (year_of fuel year days).2 ≤ year * 365 + days := by
  induction fuel generalizing year days with
  | zero => exact Nat.le_refl _
  | succ fuel ih =>
    rw [year_of]
    split
    · exact Nat.le_refl _
    · rename_i hlt
      have hpos := year_days_pos year
      have hstep : (year + 1) * 365 + (days - year_days year) ≤ year * 365 + days := by omega
      exact Nat.le_trans (ih (year + 1) (days - year_days year)) hstep

/-- The months before the one that is found, and the days in it, make up the days. -/
theorem month_of_days (lengths : List Nat) (month days : Nat) :
    ∃ k, (month_of lengths month days).1 = month + k ∧ k ≤ lengths.length ∧
      (lengths.take k).sum + (month_of lengths month days).2 = days ∧
      (days < lengths.sum →
        ∃ n ∈ lengths, (month_of lengths month days).2 < n ∧ k < lengths.length) := by
  induction lengths generalizing month days with
  | nil => exact ⟨0, rfl, by simp, by simp [month_of], by simp⟩
  | cons n lengths ih =>
    unfold month_of
    split
    · exact ⟨0, rfl, by simp, by simp, fun _ => ⟨n, by simp, by assumption, by simp⟩⟩
    · rename_i hge
      obtain ⟨k, h1, h2, h3, h4⟩ := ih (month + 1) (days - n)
      refine ⟨k + 1, by rw [h1, Nat.add_assoc, Nat.add_comm 1], by simpa using h2, ?_, ?_⟩
      · rw [List.take_succ_cons, List.sum_cons, Nat.add_assoc, h3]
        exact Nat.add_sub_cancel' (Nat.le_of_not_lt hge)
      · intro hlt
        rw [List.sum_cons] at hlt
        obtain ⟨m, hm, hlt, hk⟩ := h4 (by omega)
        exact ⟨m, by simp [hm], hlt, by simpa using hk⟩

theorem month_days_sum (year : Nat) : (month_days year).sum = year_days year := by
  unfold month_days year_days
  split <;> rfl

theorem month_days_le {year n : Nat} (h : n ∈ month_days year) : n ≤ 31 := by
  unfold month_days at h
  simp only [List.mem_cons, List.not_mem_nil, or_false] at h
  split at h <;> omega

/-- No second is lost. -/
theorem timegm_gmtime (seconds : Nat) : timegm (gmtime seconds) = seconds := by
  have hyear := year_of_days (seconds / 86400) (seconds / 86400) (Nat.le_refl 1970)
  obtain ⟨k, hk, -, hmonth, -⟩ := month_of_days
    (month_days (year_of (seconds / 86400) 1970 (seconds / 86400)).1) 1
    (year_of (seconds / 86400) 1970 (seconds / 86400)).2
  have h0 : days_before_year 1970 = 0 := rfl
  unfold timegm gmtime days_before_month
  dsimp only
  rw [hk, Nat.add_sub_cancel_left, Nat.add_sub_cancel, Nat.add_assoc (days_before_year _), hmonth,
    hyear, h0]
  omega

/-- The fields of a time have the digits of its text. -/
structure Shown (t : Time) : Prop where
  year : t.year < 10000
  month : t.month < 100
  day : 0 < t.day ∧ t.day < 100
  hour : t.hour < 100
  minute : t.minute < 100
  second : t.second < 100

/-- The years up to 9999 have four digits; the bound is the first day after the year 9989. -/
theorem shown_gmtime {seconds : Nat} (h : seconds / 86400 < 8020 * 365) :
    Shown (gmtime seconds) := by
  have hyear := year_of_le (seconds / 86400) 1970 (seconds / 86400)
  have hlt := year_of_lt 1970 (Nat.le_refl (seconds / 86400))
  rw [← month_days_sum] at hlt
  obtain ⟨k, hk, -, -, hmonth⟩ := month_of_days
    (month_days (year_of (seconds / 86400) 1970 (seconds / 86400)).1) 1
    (year_of (seconds / 86400) 1970 (seconds / 86400)).2
  obtain ⟨n, hn, hday, hk'⟩ := hmonth hlt
  have hle := month_days_le hn
  have hlength :
      (month_days (year_of (seconds / 86400) 1970 (seconds / 86400)).1).length = 12 := rfl
  unfold gmtime
  refine ⟨?_, ?_, ⟨?_, ?_⟩, ?_, ?_, ?_⟩ <;> dsimp only
  · omega
  · omega
  · omega
  · omega
  · omega
  · omega
  · omega

/-! ## The text of a time -/

/-- The last `width` digits of a number. -/
def pad : (width n : Nat) → Text
  | 0, _ => []
  | width + 1, n => pad width (n / 10) ++ [UInt8.ofNat (0x30 + n % 10)]

/-- "%Y-%m-%dT%H:%M:%S", for a year of four digits. -/
def put_time (t : Time) : Text :=
  pad 4 t.year ++ 0x2d :: (pad 2 t.month ++ 0x2d :: (pad 2 t.day ++ 0x54 :: (pad 2 t.hour ++
    0x3a :: (pad 2 t.minute ++ 0x3a :: pad 2 t.second))))

/-- A number of `width` digits, and the text behind it. -/
def read_field (width : Nat) (text : Text) : Option (Nat × Text) :=
  if (text.take width).length = width ∧ (text.take width).all digit then
    some (digits_value (text.take width), text.drop width)
  else none

def read_byte (b : UInt8) : Text → Option Text
  | [] => none
  | c :: text => if c = b then some text else none

/-- A time in the form of `put_time`, and the text behind it. -/
def read_time (text : Text) : Option (Time × Text) := do
  let (year, text) ← read_field 4 text
  let text ← read_byte 0x2d text
  let (month, text) ← read_field 2 text
  let text ← read_byte 0x2d text
  let (day, text) ← read_field 2 text
  let text ← read_byte 0x54 text
  let (hour, text) ← read_field 2 text
  let text ← read_byte 0x3a text
  let (minute, text) ← read_field 2 text
  let text ← read_byte 0x3a text
  let (second, text) ← read_field 2 text
  return (⟨year, month, day, hour, minute, second⟩, text)

@[simp]
theorem length_pad (width n : Nat) : (pad width n).length = width := by
  induction width generalizing n with
  | zero => rfl
  | succ width ih => simp [pad, ih]

theorem digit_of_lt_ten {d : Nat} (h : d < 10) :
    digit (UInt8.ofNat (0x30 + d)) = true ∧ (UInt8.ofNat (0x30 + d)).toNat - 0x30 = d := by
  have hall : ∀ d : Fin 10, digit (UInt8.ofNat (0x30 + d.val)) = true ∧
      (UInt8.ofNat (0x30 + d.val)).toNat - 0x30 = d.val := by
    decide
  exact hall ⟨d, h⟩

theorem digit_of_mem_pad {width n : Nat} {b : UInt8} (h : b ∈ pad width n) : digit b = true := by
  induction width generalizing n with
  | zero => simp [pad] at h
  | succ width ih =>
    rw [pad, List.mem_append, List.mem_singleton] at h
    rcases h with h | rfl
    · exact ih h
    · exact (digit_of_lt_ten (Nat.mod_lt _ (by omega))).1

theorem digits_value_pad {width n : Nat} (h : n < 10 ^ width) : digits_value (pad width n) = n := by
  induction width generalizing n with
  | zero =>
    rw [Nat.pow_zero] at h
    rw [pad]
    simp only [digits_value, List.foldl_nil]
    omega
  | succ width ih =>
    have hdiv : n / 10 < 10 ^ width := by
      rw [Nat.pow_succ] at h
      omega
    have hprefix := ih hdiv
    have hlast := (digit_of_lt_ten (Nat.mod_lt n (by omega : 10 > 0))).2
    unfold digits_value at hprefix ⊢
    rw [pad, List.foldl_append, hprefix, List.foldl_cons, List.foldl_nil, hlast]
    omega

theorem read_field_pad {width n : Nat} (h : n < 10 ^ width) (text : Text) :
    read_field width (pad width n ++ text) = some (n, text) := by
  have htake : (pad width n ++ text).take width = pad width n := List.take_left' (length_pad _ _)
  have hdrop : (pad width n ++ text).drop width = text := List.drop_left' (length_pad _ _)
  have hall : (pad width n).all digit = true := List.all_eq_true.mpr fun b hb => digit_of_mem_pad hb
  unfold read_field
  rw [htake, hdrop, if_pos ⟨length_pad _ _, hall⟩, digits_value_pad h]

@[simp]
theorem read_byte_cons (b : UInt8) (text : Text) : read_byte b (b :: text) = some text := by
  simp [read_byte]

theorem read_time_put_time {t : Time} (h : Shown t) (text : Text) :
    read_time (put_time t ++ text) = some (t, text) := by
  have hyear := read_field_pad (show t.year < 10 ^ 4 from h.year)
  have hmonth := read_field_pad (show t.month < 10 ^ 2 from h.month)
  have hday := read_field_pad (show t.day < 10 ^ 2 from h.day.2)
  have hhour := read_field_pad (show t.hour < 10 ^ 2 from h.hour)
  have hminute := read_field_pad (show t.minute < 10 ^ 2 from h.minute)
  have hsecond := read_field_pad (show t.second < 10 ^ 2 from h.second)
  unfold read_time put_time
  simp only [List.append_assoc, List.cons_append, Option.bind_eq_bind, Option.bind_some, hyear,
    hmonth, hday, hhour, hminute, hsecond, read_byte_cons]
  rfl

end calendar
