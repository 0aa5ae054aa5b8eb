-- How long a timed wait may take (u_cap, u_round and n_cap of transport/wire.h, and the calls
-- of timed_wait). A timeout is rounded to milliseconds first and capped at ten years after that.
import TateyamaBootstrap.SignedArithmetic
import Mathlib.Algebra.Order.Group.Abs
import Mathlib.Algebra.Order.Group.Int

open signed_arithmetic

namespace tateyama_bootstrap.wait_timeouts

/-! ## The functions -/

/-- Ten years in microseconds. -/
def MAX_TIMEOUT : Int64 := 10 * 365 * 24 * 3600 * 1000 * 1000

def u_cap (timeout : Int64) : Int64 := if timeout > MAX_TIMEOUT then MAX_TIMEOUT else timeout

/-- `none` when an operation overflows. -/
def u_round (timeout : Int64) : Option Int64 :=
  if timeout = 0 then some timeout
  else do
    let less ← sub timeout 500
    let quotient ← div less 1000
    let units ← add quotient 1
    mul units 1000

def n_cap (timeout : Int64) : Option Int64 := do
  let max ← mul MAX_TIMEOUT 1000
  some (if timeout > max then max else timeout)

/-- `u_cap(u_round(timeout))`. -/
def u_cap_u_round (timeout : Int64) : Option Int64 := (u_round timeout).map u_cap

/-! ## The waits -/

/-- What a wait is given: no limit, or a time from now on. -/
inductive Limit
  | unlimited
  | nanoseconds (n : Int64)
  | microseconds (n : Int64)
deriving DecidableEq, Repr

/-- `has_nanoseconds` is `BOOST_DATE_TIME_HAS_NANOSECONDS` of the build. -/
def timed_limit (has_nanoseconds : Bool) (timeout : Int64) : Option Limit :=
  if has_nanoseconds then (n_cap timeout).map .nanoseconds
  else (u_cap_u_round timeout).map .microseconds

/-- `connection_queue::element::wait`. -/
def element_wait_limit (has_nanoseconds : Bool) (timeout : Int64) : Option Limit :=
  if timeout ≤ 0 then some .unlimited else timed_limit has_nanoseconds timeout

/-- `watch_interval` of the response wire, of the result sets and of the connection queue. -/
def watch_interval : Int64 := 5

/-- The timeout of `await` and of `active_wire`: 0 stands for the watch interval. -/
def watched (timeout : Int64) : Int64 :=
  if timeout = 0 then watch_interval * 1000 * 1000 else timeout

/-- `unidirectional_response_wire::await` makes no use of nanoseconds. -/
def await_limit (timeout : Int64) : Option Limit := timed_limit false (watched timeout)

/-- `unidirectional_simple_wires::active_wire`. -/
def active_wire_limit (has_nanoseconds : Bool) (timeout : Int64) : Option Limit :=
  timed_limit has_nanoseconds (watched timeout)

/-- `connection_queue::index_queue::wait`. -/
def index_queue_wait_limit : Option Limit := timed_limit false (watch_interval * 1000 * 1000)

/-- `unidirectional_message_wire::peep`. The watch interval of the request wire is 2. -/
def peep_limit : Option Limit := timed_limit false (2 * 1000 * 1000)

/-! ## The operations through the integers -/

theorem toInt_MAX_TIMEOUT : MAX_TIMEOUT.toInt = 315360000000000 := by decide

theorem toInt_u_cap (t : Int64) : (u_cap t).toInt = min t.toInt 315360000000000 := by
  unfold u_cap
  split
  · rename_i h
    rw [gt_iff_lt, Int64.lt_iff_toInt_lt, toInt_MAX_TIMEOUT] at h
    rw [toInt_MAX_TIMEOUT]
    omega
  · rename_i h
    rw [gt_iff_lt, Int64.lt_iff_toInt_lt, toInt_MAX_TIMEOUT] at h
    omega

/-- The steps of `u_round` are those of the rounding to thousands. The subtraction overflows
near the least word and the product near the greatest. -/
theorem u_round_eq_some {t : Int64} (ht : t ≠ 0) (r : Int64) :
    u_round t = some r ↔
      -2 ^ 63 ≤ t.toInt - 500 ∧ r.toInt = round_to 1000 t.toInt := by
  have h500 : (500 : Int64).toInt = 500 := by decide
  have h1000 : (1000 : Int64).toInt = 1000 := by decide
  have h1 : (1 : Int64).toInt = 1 := by decide
  have hlt := t.toInt_lt
  rw [u_round, if_neg ht]
  simp only [Option.bind_eq_bind, Option.bind_eq_some_iff, sub_eq_some, add_eq_some, mul_eq_some,
    div_eq_some _ _ _ (by decide : (1000 : Int64) ≠ 0), h500, h1000, h1]
  constructor
  · rintro ⟨less, hless, quotient, hquotient, units, hunits, hr⟩
    refine ⟨hless ▸ less.le_toInt, ?_⟩
    rw [hr, hunits, hquotient, hless]
    rfl
  · rintro ⟨hleast, hr⟩
    obtain ⟨less, hless⟩ := (exists_toInt_eq (t.toInt - 500)).mpr ⟨hleast, by omega⟩
    -- the quotient lies between those of the least and of the greatest word
    have hl : (-2 ^ 63 : Int).tdiv 1000 ≤ less.toInt.tdiv 1000 :=
      Int.tdiv_le_tdiv (by omega) less.le_toInt
    have hu : less.toInt.tdiv 1000 ≤ (2 ^ 63 : Int).tdiv 1000 :=
      Int.tdiv_le_tdiv (by omega) (Int.le_of_lt less.toInt_lt)
    have hleast' : (-2 ^ 63 : Int).tdiv 1000 = -9223372036854775 := by decide
    have hgreatest : (2 ^ 63 : Int).tdiv 1000 = 9223372036854775 := by decide
    obtain ⟨quotient, hquotient⟩ := (exists_toInt_eq (less.toInt.tdiv 1000)).mpr (by omega)
    obtain ⟨units, hunits⟩ := (exists_toInt_eq (quotient.toInt + 1)).mpr (by omega)
    refine ⟨less, hless, quotient, hquotient, units, hunits, ?_⟩
    rw [hr, hunits, hquotient, hless]
    rfl

/-- The 308 greatest words round to a number above them all. -/
theorem round_to_lt_iff {t : Int} (ht : 0 < t) :
    round_to 1000 t < 2 ^ 63 ↔ t < 9223372036854775500 := by
  have hdvd := dvd_round_to 1000 t
  by_cases hhalf : 500 ≤ t
  · obtain ⟨hl, hu⟩ := round_to_near 1000 (by decide) hhalf
    omega
  · have hm : round_to 1000 t ≤ round_to 1000 500 := round_to_mono 1000 (by decide) (by omega)
    have h500 : round_to 1000 500 = 1000 := by decide
    omega

theorem toInt_pos {t : Int64} (ht : 0 < t) : 0 < t.toInt := Int64.lt_iff_toInt_lt.mp ht

theorem thousand_le_round_to {t : Int64} (ht : 0 < t) : 1000 ≤ round_to 1000 t.toInt :=
  unit_le_round_to 1000 (by decide) (Int.le_of_lt (toInt_pos ht))

theorem exists_capped {t : Int64} (ht : 0 < t) :
    ∃ r : Int64, r.toInt = min (round_to 1000 t.toInt) 315360000000000 := by
  have hunit := thousand_le_round_to ht
  exact (exists_toInt_eq _).mpr (by omega)

theorem u_cap_u_round_eq_some {t : Int64} (ht : 0 < t) (r : Int64) :
    u_cap_u_round t = some r ↔
      t.toInt < 9223372036854775500 ∧
        r.toInt = min (round_to 1000 t.toInt) 315360000000000 := by
  have hne : t ≠ 0 := by
    rintro rfl
    exact absurd ht (by decide)
  have hpos := toInt_pos ht
  have hunit := thousand_le_round_to ht
  rw [← round_to_lt_iff hpos, u_cap_u_round, Option.map_eq_some_iff]
  simp only [u_round_eq_some hne]
  constructor
  · rintro ⟨m, ⟨-, hm⟩, rfl⟩
    rw [toInt_u_cap, ← hm]
    exact ⟨m.toInt_lt, rfl⟩
  · rintro ⟨hlt, hr⟩
    obtain ⟨m, hm⟩ := (exists_toInt_eq (round_to 1000 t.toInt)).mpr ⟨by omega, hlt⟩
    refine ⟨m, ⟨by omega, hm⟩, Int64.toInt_inj.mp ?_⟩
    rw [toInt_u_cap, hm, hr]

/-! ## What a normalised timeout is -/

/-- What a wait may rely on in the timeout `r` that it gets for `t`. -/
structure Normalised (t r : Int64) : Prop where
  positive : 0 < r
  multiple : (1000 : Int) ∣ r.toInt
  capped : r ≤ MAX_TIMEOUT
  near : 500 ≤ t → t ≤ MAX_TIMEOUT → |r.toInt - t.toInt| ≤ 500
  monotone : ∀ s, 0 < s → s ≤ t → ∃ q, u_cap_u_round s = some q ∧ q ≤ r

theorem normalised_of_eq_some {t r : Int64} (ht : 0 < t) (h : u_cap_u_round t = some r) :
    Normalised t r := by
  obtain ⟨hlt, hr⟩ := (u_cap_u_round_eq_some ht r).mp h
  have hdvd := dvd_round_to 1000 t.toInt
  have hunit := thousand_le_round_to ht
  constructor
  case positive =>
    have h0 : (0 : Int64).toInt = 0 := by decide
    rw [Int64.lt_iff_toInt_lt, h0]
    omega
  case multiple => omega
  case capped =>
    rw [Int64.le_iff_toInt_le, toInt_MAX_TIMEOUT]
    omega
  case near =>
    intro hhalf hmax
    rw [Int64.le_iff_toInt_le, toInt_MAX_TIMEOUT] at hmax
    obtain ⟨hl, hu⟩ := round_to_near 1000 (by decide) (Int64.le_iff_toInt_le.mp hhalf)
    rw [abs_le]
    omega
  case monotone =>
    intro s hs hst
    have hle := Int64.le_iff_toInt_le.mp hst
    have hm : round_to 1000 s.toInt ≤ round_to 1000 t.toInt := round_to_mono 1000 (by decide) hle
    obtain ⟨q, hq⟩ := exists_capped hs
    refine ⟨q, (u_cap_u_round_eq_some hs q).mpr ⟨by omega, hq⟩, ?_⟩
    rw [Int64.le_iff_toInt_le]
    omega

/-- `u_round` and `u_cap` go through for `t` and give what a wait may rely on. -/
def NormalisationIsSafe (t : Int64) : Prop :=
  ∃ r, u_cap_u_round t = some r ∧ Normalised t r

theorem u_cap_u_round_isSome {t : Int64} (ht : 0 < t) :
    (∃ r, u_cap_u_round t = some r) ↔ t < 9223372036854775500 := by
  have hbound : (9223372036854775500 : Int64).toInt = 9223372036854775500 := by decide
  rw [Int64.lt_iff_toInt_lt, hbound]
  simp only [u_cap_u_round_eq_some ht]
  constructor
  · rintro ⟨r, hlt, -⟩
    exact hlt
  · intro hlt
    obtain ⟨r, hr⟩ := exists_capped ht
    exact ⟨r, hlt, hr⟩

/-- The timeout of every wait is normalised, but for the 308 greatest words: `u_round` comes
before the cap, and its product overflows there. -/
theorem normalisation_is_safe_iff (t : Int64) (ht : 0 < t) :
    NormalisationIsSafe t ↔ t < 9223372036854775500 := by
  rw [← u_cap_u_round_isSome ht]
  constructor
  · rintro ⟨r, hr, -⟩
    exact ⟨r, hr⟩
  · rintro ⟨r, hr⟩
    exact ⟨r, hr, normalised_of_eq_some ht hr⟩

/-- A millisecond and a half is two. -/
theorem normalisation_is_safe_for_a_tie :
    (0 : Int64) < 1500 ∧ NormalisationIsSafe 1500 ∧ u_cap_u_round 1500 = some 2000 :=
  ⟨by decide, (normalisation_is_safe_iff 1500 (by decide)).mpr (by decide), by decide⟩

theorem the_greatest_timeout_overflows :
    ¬ ∀ t : Int64, 0 < t → NormalisationIsSafe t := by
  intro h
  obtain ⟨r, hr, -⟩ := h Int64.maxValue (by decide)
  have hnone : u_cap_u_round Int64.maxValue = none := by decide
  rw [hnone] at hr
  cases hr

/-! ## The limits of the waits -/

/-- A time that is not over yet and that is not more than ten years away. -/
def Limit.Bounded : Limit → Prop
  | .unlimited => True
  | .nanoseconds n => 0 < n ∧ n ≤ MAX_TIMEOUT * 1000
  | .microseconds n => 0 < n ∧ n ≤ MAX_TIMEOUT

/-- A wait has its limit, or it is to have none. -/
def Waits (limit : Option Limit) : Prop := ∃ l, limit = some l ∧ l.Bounded

/-- `n_cap` does no arithmetic on the timeout, so no word is too great for it. -/
theorem n_cap_eq (t : Int64) :
    n_cap t = some (if t > MAX_TIMEOUT * 1000 then MAX_TIMEOUT * 1000 else t) := by
  have hmul : mul MAX_TIMEOUT 1000 = some (MAX_TIMEOUT * 1000) := by decide
  rw [n_cap, hmul]
  rfl

theorem bounded_n_cap {t : Int64} (ht : 0 < t) :
    ∃ r, n_cap t = some r ∧ (Limit.nanoseconds r).Bounded := by
  refine ⟨_, n_cap_eq t, ?_⟩
  split
  · exact ⟨by decide, Int64.le_refl _⟩
  · rename_i h
    exact ⟨ht, Int64.not_lt.mp h⟩

theorem timed_limit_iff (has_nanoseconds : Bool) {t : Int64} (ht : 0 < t) :
    Waits (timed_limit has_nanoseconds t) ↔
      has_nanoseconds = true ∨ t < 9223372036854775500 := by
  unfold Waits
  cases has_nanoseconds with
  | true =>
    obtain ⟨r, hr, hb⟩ := bounded_n_cap ht
    simpa [timed_limit, hr] using hb
  | false =>
    rw [← u_cap_u_round_isSome ht]
    simp only [timed_limit, Bool.false_eq_true, if_false, false_or, Option.map_eq_some_iff]
    constructor
    · rintro ⟨limit, ⟨r, hr, -⟩, -⟩
      exact ⟨r, hr⟩
    · rintro ⟨r, hr⟩
      have hnorm := normalised_of_eq_some ht hr
      exact ⟨_, ⟨r, hr, rfl⟩, hnorm.positive, hnorm.capped⟩

theorem element_wait_limit_iff (has_nanoseconds : Bool) (t : Int64) :
    Waits (element_wait_limit has_nanoseconds t) ↔
      has_nanoseconds = true ∨ t < 9223372036854775500 := by
  unfold element_wait_limit
  split
  · rename_i h
    have hlt : t < 9223372036854775500 := Int64.lt_of_le_of_lt h (by decide)
    exact iff_of_true ⟨.unlimited, rfl, trivial⟩ (.inr hlt)
  · rename_i h
    exact timed_limit_iff has_nanoseconds (Int64.not_le.mp h)

theorem active_wire_limit_iff (has_nanoseconds : Bool) {t : Int64} (ht : 0 ≤ t) :
    Waits (active_wire_limit has_nanoseconds t) ↔
      has_nanoseconds = true ∨ t < 9223372036854775500 := by
  unfold active_wire_limit watched
  split
  · rename_i h
    subst h
    refine (timed_limit_iff has_nanoseconds (by decide)).trans ?_
    exact or_congr_right (iff_of_true (by decide) (by decide))
  · rename_i h
    exact timed_limit_iff has_nanoseconds (Int64.lt_of_le_of_ne ht (Ne.symm h))

theorem await_limit_iff {t : Int64} (ht : 0 ≤ t) :
    Waits (await_limit t) ↔ t < 9223372036854775500 := by
  simpa [await_limit, active_wire_limit] using active_wire_limit_iff false ht

theorem watched_of_half {t : Int64} (hhalf : 500 ≤ t) : watched t = t := by
  refine if_neg ?_
  rintro rfl
  exact absurd hhalf (by decide)

theorem timed_limit_nanoseconds {t : Int64} (hmax : t ≤ MAX_TIMEOUT) :
    timed_limit true t = some (.nanoseconds t) := by
  have hle : t ≤ MAX_TIMEOUT * 1000 := Int64.le_trans hmax (by decide)
  simp [timed_limit, n_cap_eq, Int64.not_lt.mpr hle]

theorem timed_limit_microseconds {t : Int64} (hhalf : 500 ≤ t) (hmax : t ≤ MAX_TIMEOUT) :
    ∃ r, timed_limit false t = some (.microseconds r) ∧ |r.toInt - t.toInt| ≤ 500 := by
  have ht : 0 < t := Int64.lt_of_lt_of_le (by decide) hhalf
  have hlt : t < 9223372036854775500 := Int64.lt_of_le_of_lt hmax (by decide)
  obtain ⟨r, hr⟩ := (u_cap_u_round_isSome ht).mpr hlt
  refine ⟨r, ?_, (normalised_of_eq_some ht hr).near hhalf hmax⟩
  simp [timed_limit, hr]

/-- The greatest timeouts break a wait for a response in every build and the two others in a
build without nanoseconds. In between a timeout of one number is two times: a build with
nanoseconds takes it for nanoseconds where the other takes it for microseconds. -/
theorem every_wait_takes_its_timeout_iff (has_nanoseconds : Bool) (t : Int64) (ht : 0 ≤ t) :
    (Waits (element_wait_limit has_nanoseconds t) ↔
      has_nanoseconds = true ∨ t < 9223372036854775500) ∧
    (Waits (active_wire_limit has_nanoseconds t) ↔
      has_nanoseconds = true ∨ t < 9223372036854775500) ∧
    (Waits (await_limit t) ↔ t < 9223372036854775500) ∧
    (500 ≤ t → t ≤ MAX_TIMEOUT →
      element_wait_limit true t = some (.nanoseconds t) ∧
      active_wire_limit true t = some (.nanoseconds t) ∧
      ∃ r, |r.toInt - t.toInt| ≤ 500 ∧
        element_wait_limit false t = some (.microseconds r) ∧
        active_wire_limit false t = some (.microseconds r) ∧
        await_limit t = some (.microseconds r)) := by
  refine ⟨element_wait_limit_iff _ t, active_wire_limit_iff _ ht, await_limit_iff ht, ?_⟩
  intro hhalf hmax
  have hpos : ¬ t ≤ 0 := Int64.not_le.mpr (Int64.lt_of_lt_of_le (by decide) hhalf)
  obtain ⟨r, hr, hnear⟩ := timed_limit_microseconds hhalf hmax
  unfold element_wait_limit active_wire_limit await_limit
  rw [if_neg hpos, if_neg hpos, watched_of_half hhalf]
  exact ⟨timed_limit_nanoseconds hmax, timed_limit_nanoseconds hmax, r, hnear, hr, hr, hr⟩

theorem every_wait_takes_its_timeout_of_a_second :
    (0 : Int64) ≤ 1000000 ∧ Waits (await_limit 1000000) ∧
      active_wire_limit true 1000000 = some (.nanoseconds 1000000) := by
  obtain ⟨-, -, hawait, hbuilds⟩ := every_wait_takes_its_timeout_iff true 1000000 (by decide)
  exact ⟨by decide, hawait.mpr (by decide), (hbuilds (by decide) (by decide)).2.1⟩

/-- The five seconds of the watch interval are five milliseconds there. -/
example : active_wire_limit true 0 = some (.nanoseconds 5000000) := by decide

example : peep_limit = some (.microseconds 2000000) := by decide

example : index_queue_wait_limit = some (.microseconds 5000000) := by decide

end tateyama_bootstrap.wait_timeouts
