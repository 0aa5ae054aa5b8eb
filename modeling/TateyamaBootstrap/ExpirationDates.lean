-- The expiration date that a credential carries (authentication/credential_handler.cpp): the
-- whole seconds of an instant through gmtime and put_time, and then its milliseconds as a plain
-- number.
import TateyamaBootstrap.Calendar
import Mathlib.Algebra.Field.Rat
import Mathlib.Tactic.NormNum
import Mathlib.Tactic.Ring

open json calendar

namespace tateyama_bootstrap.authentication

/-- The text that `credential_handler::expiration` builds for an instant, in nanoseconds since
the epoch. The stream prints the integer as it is: `std::fixed` and `std::setprecision` are for
floating-point numbers. -/
def expiration_text (t : Nat) : Text :=
  let full := t / 1000000
  let sec := t / 1000000000
  put_time (gmtime sec) ++ 0x2e :: (nat_text (full - sec * 1000) ++ [0x5a])

/-! ## Reading a date -/

/-- A date and time of ISO 8601 in UTC, with a decimal fraction of a second: the seconds since
the epoch. -/
def read_iso (text : Text) : Option Rat := do
  let (time, text) ← read_time text
  let text ← read_byte 0x2e text
  let digits := text.takeWhile digit
  if digits ≠ [] ∧ text.dropWhile digit = [0x5a] then
    some (timegm time + digits_value digits / 10 ^ digits.length)
  else none

/-- The instant truncated to milliseconds, in seconds. -/
def truncated (t : Nat) : Rat := (t / 1000000 : Nat) / 1000

/-- The milliseconds behind the last whole second. -/
def milliseconds (t : Nat) : Nat := t / 1000000 % 1000

theorem milliseconds_lt (t : Nat) : milliseconds t < 1000 := Nat.mod_lt _ (by omega)

theorem expiration_text_eq (t : Nat) : expiration_text t =
    put_time (gmtime (t / 1000000000)) ++ 0x2e :: (nat_text (milliseconds t) ++ [0x5a]) := by
  have hms : t / 1000000 - t / 1000000000 * 1000 = milliseconds t := by
    unfold milliseconds
    omega
  simp only [expiration_text, hms]

theorem shown_clock {t : Nat} (ht : t < 2 ^ 63) : t / 1000000000 / 86400 < 8020 * 365 := by
  omega

theorem read_iso_expiration_text {t : Nat} (ht : t < 2 ^ 63) :
    read_iso (expiration_text t) = some ((t / 1000000000 : Nat) +
      (milliseconds t : Rat) / 10 ^ (nat_text (milliseconds t)).length) := by
  have hdigits : ∀ b ∈ nat_text (milliseconds t), digit b = true := fun b hb =>
    digit_of_mem_nat_text hb
  have htake : (nat_text (milliseconds t) ++ [0x5a]).takeWhile digit =
      nat_text (milliseconds t) := by
    rw [List.takeWhile_append_of_pos hdigits]
    simp [digit]
  have hdrop : (nat_text (milliseconds t) ++ [0x5a]).dropWhile digit = [0x5a] := by
    rw [List.dropWhile_append_of_pos hdigits]
    simp [digit]
  unfold read_iso
  rw [expiration_text_eq]
  simp only [read_time_put_time (shown_gmtime (shown_clock ht)), Option.bind_eq_bind,
    Option.bind_some, read_byte_cons, htake, hdrop, timegm_gmtime, digits_value_nat_text]
  rw [if_pos ⟨nat_text_ne_nil _, trivial⟩]

theorem truncated_eq (t : Nat) :
    truncated t = (t / 1000000000 : Nat) + (milliseconds t : Rat) / 1000 := by
  have hsum : t / 1000000 = t / 1000000000 * 1000 + milliseconds t := by
    unfold milliseconds
    omega
  unfold truncated
  rw [hsum]
  push_cast
  ring

/-- How many digits the milliseconds have. -/
theorem length_nat_text_milliseconds {ms : Nat} (h : ms < 1000) :
    (nat_text ms).length = if ms < 10 then 1 else if ms < 100 then 2 else 3 := by
  split
  · rw [nat_text_of_lt (by omega)]
    rfl
  rw [nat_text_of_le (by omega), List.length_append]
  split
  · rw [nat_text_of_lt (by omega)]
    rfl
  · rw [nat_text_of_le (by omega), nat_text_of_lt (by omega)]
    rfl

/-- The milliseconds have three digits, or there are none. -/
def Exact (t : Nat) : Prop := milliseconds t = 0 ∨ 100 ≤ milliseconds t

/-- The date denotes its instant exactly when the number of milliseconds needs no leading
zeros. -/
theorem read_iso_iff {t : Nat} (ht : t < 2 ^ 63) :
    read_iso (expiration_text t) = some (truncated t) ↔ Exact t := by
  have hlt := milliseconds_lt t
  rw [read_iso_expiration_text ht, truncated_eq, Option.some.injEq, add_right_inj,
    length_nat_text_milliseconds hlt]
  unfold Exact
  generalize milliseconds t = ms at *
  split
  · rw [div_eq_div_iff (by norm_num) (by norm_num)]
    norm_cast
    omega
  split
  · rw [div_eq_div_iff (by norm_num) (by norm_num)]
    norm_cast
    omega
  · norm_num
    omega

/-! ## The order of the dates within a second -/

theorem append_lt_append_iff (pre a b : Text) : pre ++ a < pre ++ b ↔ a < b := by
  induction pre with
  | nil => rfl
  | cons c pre ih =>
    rw [List.cons_append, List.cons_append, List.cons_lt_cons_iff, ih]
    simp

theorem nat_text_of_hundreds {ms : Nat} (hlo : 100 ≤ ms) (hhi : ms < 1000) :
    nat_text ms = [UInt8.ofNat (0x30 + ms / 100), UInt8.ofNat (0x30 + ms / 10 % 10),
      UInt8.ofNat (0x30 + ms % 10)] := by
  rw [nat_text_of_le (by omega), nat_text_of_le (by omega), nat_text_of_lt (by omega),
    Nat.div_div_eq_div_mul]
  rfl

theorem byte_toNat {a : Nat} (ha : a < 10) : (UInt8.ofNat (0x30 + a)).toNat = 0x30 + a :=
  UInt8.toNat_ofNat_of_lt' (Nat.lt_of_lt_of_le (Nat.add_lt_add_left ha 0x30) (by decide))

theorem byte_lt_iff {a b : Nat} (ha : a < 10) (hb : b < 10) :
    UInt8.ofNat (0x30 + a) < UInt8.ofNat (0x30 + b) ↔ a < b := by
  rw [UInt8.lt_iff_toNat_lt, byte_toNat ha, byte_toNat hb]
  omega

theorem byte_eq_iff {a b : Nat} (ha : a < 10) (hb : b < 10) :
    UInt8.ofNat (0x30 + a) = UInt8.ofNat (0x30 + b) ↔ a = b := by
  rw [← UInt8.toNat_inj, byte_toNat ha, byte_toNat hb]
  omega

/-- Numbers of three digits, and zero before them, stand in the order of their texts. -/
theorem milliseconds_lt_iff {a b : Nat} (ha : a < 1000) (hb : b < 1000)
    (ha' : a = 0 ∨ 100 ≤ a) (hb' : b = 0 ∨ 100 ≤ b) :
    nat_text a ++ [0x5a] < nat_text b ++ [0x5a] ↔ a < b := by
  have hzero : nat_text 0 = [UInt8.ofNat (0x30 + 0)] := nat_text_of_lt (by omega)
  rcases ha' with rfl | ha'
  · rcases hb' with rfl | hb'
    · simp
    · rw [hzero, nat_text_of_hundreds hb' hb]
      simp only [List.cons_append, List.nil_append, List.cons_lt_cons_iff]
      rw [byte_lt_iff (by omega) (by omega), byte_eq_iff (by omega) (by omega)]
      omega
  · rcases hb' with rfl | hb'
    · rw [hzero, nat_text_of_hundreds ha' ha]
      simp only [List.cons_append, List.nil_append, List.cons_lt_cons_iff]
      rw [byte_lt_iff (by omega) (by omega), byte_eq_iff (by omega) (by omega)]
      omega
    · rw [nat_text_of_hundreds ha' ha, nat_text_of_hundreds hb' hb]
      simp only [List.cons_append, List.nil_append, List.cons_lt_cons_iff]
      rw [byte_lt_iff (by omega) (by omega), byte_eq_iff (by omega) (by omega),
        byte_lt_iff (by omega) (by omega), byte_eq_iff (by omega) (by omega),
        byte_lt_iff (by omega) (by omega), byte_eq_iff (by omega) (by omega)]
      simp
      omega

/-- For any two instants of the clock: their dates denote them, are different for different
milliseconds, and stand in the order of time within a second, exactly when the milliseconds of
both need no leading zeros. -/
theorem the_dates_denote_their_instants_iff (t u : Nat) (ht : t < 2 ^ 63) (hu : u < 2 ^ 63) :
    (read_iso (expiration_text t) = some (truncated t) ∧
      read_iso (expiration_text u) = some (truncated u) ∧
      (t / 1000000 ≠ u / 1000000 → expiration_text t ≠ expiration_text u) ∧
      (t / 1000000000 = u / 1000000000 →
        (expiration_text t < expiration_text u ↔ t / 1000000 < u / 1000000))) ↔
    Exact t ∧ Exact u := by
  constructor
  · rintro ⟨h1, h2, -, -⟩
    exact ⟨(read_iso_iff ht).mp h1, (read_iso_iff hu).mp h2⟩
  · rintro ⟨ht', hu'⟩
    have hread := (read_iso_iff ht).mpr ht'
    have hread' := (read_iso_iff hu).mpr hu'
    refine ⟨hread, hread', ?_, ?_⟩
    · intro hne heq
      rw [heq, hread', Option.some.injEq] at hread
      unfold truncated at hread
      rw [div_left_inj' (by norm_num), Nat.cast_inj] at hread
      exact hne hread.symm
    · intro hsec
      rw [expiration_text_eq, expiration_text_eq, hsec, append_lt_append_iff,
        List.cons_lt_cons_iff,
        milliseconds_lt_iff (milliseconds_lt t) (milliseconds_lt u) ht' hu']
      unfold milliseconds
      simp
      omega

/-- Half a second and two seconds after the epoch. -/
theorem the_dates_of_two_early_instants :
    read_iso (expiration_text 500000000) = some (truncated 500000000) ∧
      expiration_text 500000000 ≠ expiration_text 2000000000 := by
  have h := (the_dates_denote_their_instants_iff 500000000 2000000000 (by decide) (by decide)).mpr
    ⟨Or.inr (by decide), Or.inl (by decide)⟩
  exact ⟨h.1, h.2.2.1 (by decide)⟩

/-- Five milliseconds after the epoch: the date is "1970-01-01T00:00:00.5Z", which is half a
second after it. -/
theorem five_milliseconds_are_written_as_half_a_second :
    expiration_text 5000000 = ascii "1970-01-01T00:00:00.5Z" ∧
      read_iso (expiration_text 5000000) ≠ some (truncated 5000000) := by
  refine ⟨by decide +kernel, ?_⟩
  rw [ne_eq, read_iso_iff (by decide)]
  unfold Exact
  decide

end tateyama_bootstrap.authentication
