import Mathlib.Algebra.Order.Ring.Int
import Mathlib.Tactic.NormNum
/-!
# Dates and durations

What the program uses of `chrono`: an instant is a number of nanoseconds
since the Unix epoch, inside the range `chrono` can represent, and the sum
of an instant and a duration is an instant only inside that range.
-/

namespace DynDynser

/-- Nanoseconds in a second. -/
def nanosPerSec : ℤ := 1000000000

/-- The first second of `NaiveDate::MIN`, the year -262143. -/
def minSecs : ℤ := -8334601228800

/-- The last second of `NaiveDate::MAX`, the year 262142. -/
def maxSecs : ℤ := 8210266876799

/-- `chrono::TimeDelta`, in nanoseconds. -/
structure TimeDelta where
  nanos : ℤ
deriving DecidableEq

namespace TimeDelta

/-- `TimeDelta::seconds`. -/
def seconds (s : ℤ) : TimeDelta := ⟨s * nanosPerSec⟩

/-- `TimeDelta::num_seconds`: whole seconds, rounded towards zero. -/
def numSeconds (d : TimeDelta) : ℤ := d.nanos.tdiv nanosPerSec

end TimeDelta

/-- `chrono::DateTime<Utc>`: an instant `chrono` can represent. -/
structure DateTime where
  nanos : ℤ
  lo : minSecs * nanosPerSec ≤ nanos
  hi : nanos < (maxSecs + 1) * nanosPerSec
deriving DecidableEq

namespace DateTime

/-- The instant so many nanoseconds after the epoch, if it can be
represented. -/
def ofNanos? (n : ℤ) : Option DateTime :=
  if h : minSecs * nanosPerSec ≤ n ∧ n < (maxSecs + 1) * nanosPerSec then some ⟨n, h.1, h.2⟩
  else none

/-- `DateTime::from_timestamp(secs, 0)`. -/
def fromTimestamp (secs : ℤ) : Option DateTime := ofNanos? (secs * nanosPerSec)

/-- `DateTime::checked_add_signed`. -/
def checkedAddSigned (t : DateTime) (d : TimeDelta) : Option DateTime :=
  ofNanos? (t.nanos + d.nanos)

/-- `DateTime::signed_duration_since`, the difference of two instants. -/
def sub (t s : DateTime) : TimeDelta := ⟨t.nanos - s.nanos⟩

/-- `DateTime::timestamp`: whole seconds since the epoch, rounded down. -/
def timestamp (t : DateTime) : ℤ := t.nanos / nanosPerSec

theorem ofNanos?_eq_some {n : ℤ} {t : DateTime} : ofNanos? n = some t ↔ t.nanos = n := by
  unfold ofNanos?
  constructor
  · intro h
    split at h
    · cases h
      rfl
    · cases h
  · rintro rfl
    rw [dif_pos ⟨t.lo, t.hi⟩]

theorem fromTimestamp_eq_some {secs : ℤ} {t : DateTime} :
    fromTimestamp secs = some t ↔ t.nanos = secs * nanosPerSec := ofNanos?_eq_some

theorem checkedAddSigned_eq_some {t t' : DateTime} {d : TimeDelta} :
    t.checkedAddSigned d = some t' ↔ t'.nanos = t.nanos + d.nanos := ofNanos?_eq_some

end DateTime

/-- A reading of `Utc::now()`. The system clock is read as a time since
the epoch, so no reading is before it. -/
structure Instant where
  time : DateTime
  since_epoch : 0 ≤ time.nanos
deriving DecidableEq

end DynDynser
