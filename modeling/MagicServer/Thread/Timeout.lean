import MagicServer.Def
import Mathlib.Data.Rat.Floor
import Mathlib.Tactic.Linarith
import Mathlib.Tactic.FieldSimp
import Mathlib.Tactic.Ring

/-!
# The time-out of a wait

`ThreadLock::wait (seconds)` of `msrvthread.cc` when no thread wakes the waiting
one, with times as exact rationals. The microseconds of the clock and the
fraction of `seconds` are added without a carry into the seconds.
-/

namespace MSrv

/-- `struct timeval`, as `gettimeofday` fills it. -/
structure Timeval where
  tv_sec : Int
  tv_usec : Int
  sec_range : LONG_MIN ≤ tv_sec ∧ tv_sec ≤ LONG_MAX
  usec_range : 0 ≤ tv_usec ∧ tv_usec < 1000000

/-- `struct timespec`. -/
structure Timespec where
  tv_sec : Int
  tv_nsec : Int
  deriving DecidableEq

/-- The time in seconds. -/
def Timeval.time (now : Timeval) : ℚ := now.tv_sec + now.tv_usec / 10 ^ 6

/-- The time in seconds. -/
def Timespec.time (timeout : Timespec) : ℚ := timeout.tv_sec + timeout.tv_nsec / 10 ^ 9

/-- The nanoseconds are less than a second. -/
def Timespec.Valid (timeout : Timespec) : Prop :=
  0 ≤ timeout.tv_nsec ∧ timeout.tv_nsec < 1000000000

instance (timeout : Timespec) : Decidable timeout.Valid :=
  inferInstanceAs (Decidable (0 ≤ timeout.tv_nsec ∧ timeout.tv_nsec < 1000000000))

def EINVAL : Int := 22

def ETIMEDOUT : Int := 110

/-- `pthread_cond_timedwait` when no thread wakes the waiting one. -/
structure TimedWait where
  /-- The result for this time-out of a call at this time, and when it returns. -/
  wait : Timespec → ℚ → Int × ℚ
  /-- An invalid time-out is refused at once. -/
  refuses : ∀ timeout call, ¬ timeout.Valid → wait timeout call = (EINVAL, call)
  /-- A valid time-out passes. -/
  expires : ∀ timeout call, timeout.Valid →
    (wait timeout call).1 = ETIMEDOUT ∧ timeout.time ≤ (wait timeout call).2

/-- An integer as a `long`; there is none out of range. -/
def toLong (value : Int) : Option Int :=
  if LONG_MIN ≤ value ∧ value ≤ LONG_MAX then some value else none

/-- `long (value)` rounds towards zero. -/
def long (value : ℚ) : Option Int := toLong (if 0 ≤ value then ⌊value⌋ else ⌈value⌉)

namespace ThreadLock

/-- The time-out that `wait` determines; there is none when a `long` overflows. -/
def timeout (now : Timeval) (seconds : ℚ) : Option Timespec :=
  (long seconds).bind fun whole =>
    (toLong (now.tv_sec + whole)).bind fun tv_sec =>
      (long ((now.tv_usec + (seconds - whole) * 1000000) * 1000)).map fun tv_nsec =>
        ⟨tv_sec, tv_nsec⟩

/-- Starts waiting for a signal that does not come, at the time `call`: the result
and when it returns. There is none for a wait without a time-out. -/
def wait (timedwait : TimedWait) (now : Timeval) (seconds call : ℚ) :
    Option (MSrvResult × ℚ) :=
  if seconds ≤ 0 then none
  else
    (timeout now seconds).map fun timeout =>
      let (tresult, back) := timedwait.wait timeout call
      (if tresult = ETIMEDOUT then MSRVERR_TIMEOUT else 0, back)

/-- The seconds stay in the range of `long`. -/
structure Fits (now : Timeval) (seconds : ℚ) : Prop where
  whole : ⌊seconds⌋ ≤ LONG_MAX
  sum : now.tv_sec + ⌊seconds⌋ ≤ LONG_MAX

/-- The fraction of the clock and that of `seconds` make less than a second. -/
def NoCarry (now : Timeval) (seconds : ℚ) : Prop :=
  now.tv_usec + Int.fract seconds * 1000000 < 1000000

/-- What `wait` is documented to do with a time-out. -/
structure TimesOut (timedwait : TimedWait) (now : Timeval) (seconds call : ℚ)
    (timeout : Timespec) : Prop where
  passed : ThreadLock.timeout now seconds = some timeout
  valid : timeout.Valid
  /-- The time-out is within one nanosecond of the time asked for. -/
  near : |timeout.time - (now.time + seconds)| ≤ 1 / 10 ^ 9
  /-- The wait ends no sooner, and says that it has timed out. -/
  returns : ∃ back, wait timedwait now seconds call = some (MSRVERR_TIMEOUT, back) ∧
    timeout.time ≤ back

variable {timedwait : TimedWait} {now : Timeval} {seconds call : ℚ}

theorem toLong_of_range {value : Int} (least : LONG_MIN ≤ value) (most : value ≤ LONG_MAX) :
    toLong value = some value := if_pos ⟨least, most⟩

theorem long_of_nonneg {value : ℚ} (nonneg : 0 ≤ value) (most : ⌊value⌋ ≤ LONG_MAX) :
    long value = some ⌊value⌋ := by
  unfold long
  rw [if_pos nonneg]
  have least : LONG_MIN ≤ 0 := by decide
  exact toLong_of_range (least.trans (Int.floor_nonneg.mpr nonneg)) most

/-- The nanoseconds before they are rounded. -/
def nanoseconds (now : Timeval) (seconds : ℚ) : ℚ :=
  (now.tv_usec + Int.fract seconds * 1000000) * 1000

theorem nanoseconds_nonneg (now : Timeval) (seconds : ℚ) : 0 ≤ nanoseconds now seconds := by
  have micro : (0 : ℚ) ≤ now.tv_usec := Int.cast_nonneg now.usec_range.1
  have fraction := Int.fract_nonneg seconds
  unfold nanoseconds
  positivity

/-- They are less than two seconds. -/
theorem nanoseconds_lt (now : Timeval) (seconds : ℚ) : nanoseconds now seconds < 2000000000 := by
  have micro : (now.tv_usec : ℚ) < 1000000 := by exact_mod_cast now.usec_range.2
  have fraction := Int.fract_lt_one seconds
  unfold nanoseconds
  linarith

theorem nanoseconds_lt_second : nanoseconds now seconds < 1000000000 ↔ NoCarry now seconds := by
  unfold nanoseconds NoCarry
  constructor <;> intro less <;> linarith

/-- The time-out that `wait` determines while the seconds stay in range. -/
theorem timeout_of_fits (positive : 0 < seconds) (fits : Fits now seconds) :
    timeout now seconds =
      some ⟨now.tv_sec + ⌊seconds⌋, ⌊nanoseconds now seconds⌋⟩ := by
  have least : LONG_MIN ≤ now.tv_sec + ⌊seconds⌋ :=
    now.sec_range.1.trans (le_add_of_nonneg_right (Int.floor_nonneg.mpr positive.le))
  have most : ⌊nanoseconds now seconds⌋ ≤ LONG_MAX := by
    have small : ⌊nanoseconds now seconds⌋ < 2000000000 :=
      Int.floor_lt.mpr (by exact_mod_cast nanoseconds_lt now seconds)
    exact small.le.trans (by decide)
  have third : long ((now.tv_usec + (seconds - ⌊seconds⌋) * 1000000) * 1000) =
      some ⌊nanoseconds now seconds⌋ := long_of_nonneg (nanoseconds_nonneg now seconds) most
  rw [timeout, long_of_nonneg positive.le fits.whole, Option.bind_some,
    toLong_of_range least fits.sum, Option.bind_some, third, Option.map_some]

/-- There is a time-out only while the seconds stay in range. -/
theorem fits_of_timeout (positive : 0 < seconds) {timeout : Timespec}
    (determined : ThreadLock.timeout now seconds = some timeout) : Fits now seconds := by
  obtain ⟨whole, first, rest⟩ := Option.bind_eq_some_iff.mp determined
  obtain ⟨sum, second, _⟩ := Option.bind_eq_some_iff.mp rest
  unfold long at first
  rw [if_pos positive.le] at first
  obtain ⟨⟨_, most⟩, same⟩ := Option.ite_none_right_eq_some.mp first
  obtain ⟨⟨_, sum_most⟩, _⟩ := Option.ite_none_right_eq_some.mp second
  cases same
  exact ⟨most, sum_most⟩

/-- The time-out is valid exactly when there is no carry. -/
theorem valid_iff_noCarry :
    Timespec.Valid ⟨now.tv_sec + ⌊seconds⌋, ⌊nanoseconds now seconds⌋⟩ ↔ NoCarry now seconds := by
  rw [← nanoseconds_lt_second]
  constructor
  · intro valid
    exact_mod_cast Int.floor_lt.mp valid.2
  · intro less
    exact ⟨Int.floor_nonneg.mpr (nanoseconds_nonneg now seconds),
      Int.floor_lt.mpr (by exact_mod_cast less)⟩

/-- The time-out misses the time asked for by the rounding of the nanoseconds. -/
theorem time_near (now : Timeval) (seconds : ℚ) :
    |Timespec.time ⟨now.tv_sec + ⌊seconds⌋, ⌊nanoseconds now seconds⌋⟩ -
      (now.time + seconds)| ≤ 1 / 10 ^ 9 := by
  have missed : Timespec.time ⟨now.tv_sec + ⌊seconds⌋, ⌊nanoseconds now seconds⌋⟩ -
      (now.time + seconds) = -(Int.fract (nanoseconds now seconds) / 10 ^ 9) := by
    have rounded := Int.self_sub_fract (nanoseconds now seconds)
    have whole := Int.self_sub_fract seconds
    simp only [Timespec.time, Timeval.time, Int.cast_add, ← rounded, ← whole]
    rw [nanoseconds]
    ring
  rw [missed, abs_neg, abs_of_nonneg (div_nonneg (Int.fract_nonneg _) (by positivity))]
  exact div_le_div_of_nonneg_right (Int.fract_lt_one _).le (by positivity)

/-- A wait with a valid time-out ends when that has passed. -/
theorem wait_of_valid (positive : 0 < seconds) {timeout : Timespec}
    (determined : ThreadLock.timeout now seconds = some timeout) (valid : timeout.Valid) :
    ∃ back, wait timedwait now seconds call = some (MSRVERR_TIMEOUT, back) ∧
      timeout.time ≤ back := by
  obtain ⟨result, passes⟩ := timedwait.expires timeout call valid
  refine ⟨(timedwait.wait timeout call).2, ?_, passes⟩
  rw [wait, if_neg positive.not_ge, determined, Option.map_some]
  simp only [result, if_true]

/-- A carry ends the wait at once, and the result is 0. -/
theorem wait_of_carry (positive : 0 < seconds) (fits : Fits now seconds)
    (carry : ¬ NoCarry now seconds) :
    wait timedwait now seconds call = some (0, call) := by
  have refused := timedwait.refuses _ call ((not_congr valid_iff_noCarry).mpr carry)
  have different : EINVAL ≠ ETIMEDOUT := by decide
  rw [wait, if_neg positive.not_ge, timeout_of_fits positive fits, Option.map_some, refused]
  simp only [if_neg different]

/-- A wait times out as documented exactly when no second is carried over and the
seconds stay in the range of `long`. -/
theorem timesOut_iff (timedwait : TimedWait) (now : Timeval) (call : ℚ)
    (positive : 0 < seconds) :
    (∃ timeout, TimesOut timedwait now seconds call timeout) ↔
      NoCarry now seconds ∧ Fits now seconds := by
  constructor
  · rintro ⟨timeout, timely⟩
    have fits := fits_of_timeout positive timely.passed
    have valid := timely.valid
    cases (timeout_of_fits positive fits).symm.trans timely.passed
    exact ⟨valid_iff_noCarry.mp valid, fits⟩
  · rintro ⟨no_carry, fits⟩
    have determined := timeout_of_fits positive fits
    have valid := valid_iff_noCarry.mpr no_carry
    exact ⟨_, determined, valid, time_near now seconds, wait_of_valid positive determined valid⟩

/-- A call that returns as soon as it may. -/
def prompt : TimedWait where
  wait timeout call := if timeout.Valid then (ETIMEDOUT, timeout.time) else (EINVAL, call)
  refuses _ _ invalid := if_neg invalid
  expires _ _ valid := by
    rw [if_pos valid]
    exact ⟨rfl, le_rfl⟩

/-- A wait of half a second that begins at a quarter past a second. -/
theorem timesOut_quarter :
    let now : Timeval := ⟨1, 250000, by decide, by decide⟩
    (0 : ℚ) < 1 / 2 ∧ ∃ timeout, TimesOut prompt now (1 / 2) now.time timeout := by
  have positive : (0 : ℚ) < 1 / 2 := by norm_num
  refine ⟨positive, (timesOut_iff prompt _ _ positive).mpr ⟨?_, ?_, ?_⟩⟩
  · unfold NoCarry
    decide +kernel
  · decide +kernel
  · decide +kernel

/-- A wait of half a second that begins at half past a second has a time-out of 10^9
nanoseconds, and returns 0 at once. -/
theorem half_second_carried :
    let now : Timeval := ⟨1, 500000, by decide, by decide⟩
    timeout now (1 / 2) = some ⟨1, 1000000000⟩ ∧ ¬ Timespec.Valid ⟨1, 1000000000⟩ ∧
      wait prompt now (1 / 2) now.time = some (0, now.time) ∧
      ¬ ∃ timeout, TimesOut prompt now (1 / 2) now.time timeout := by
  intro now
  have determined : timeout now (1 / 2) = some ⟨1, 1000000000⟩ := by decide +kernel
  have invalid : ¬ Timespec.Valid ⟨1, 1000000000⟩ := by decide
  refine ⟨determined, invalid, by decide +kernel, ?_⟩
  rintro ⟨timeout, timely⟩
  cases determined.symm.trans timely.passed
  exact invalid timely.valid

end ThreadLock

end MSrv
