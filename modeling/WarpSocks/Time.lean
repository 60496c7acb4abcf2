/-!
# Durations and instants of the standard library

`std::time::Duration`: whole seconds and a fraction in nanoseconds; and `std::time::SystemTime`.
-/

namespace WarpSocks

/-- `std::time::Duration`. -/
structure Duration where
  secs : Nat
  nanos : Nat
  nanos_lt : nanos < 1000000000
  deriving DecidableEq

namespace Duration

/-- `Duration::from_secs`. -/
def fromSecs (secs : Nat) : Duration := ⟨secs, 0, by decide⟩

/-- `Duration::ZERO`. -/
def zero : Duration := fromSecs 0

/-- `Duration::is_zero`. -/
def isZero (d : Duration) : Bool := d.secs == 0 && d.nanos == 0

/-- `Duration::as_nanos`. -/
def asNanos (d : Duration) : Nat := d.secs * 1000000000 + d.nanos

/-- `Duration::clamp`. -/
def clamp (d low high : Duration) : Duration :=
  if d.asNanos < low.asNanos then low else if high.asNanos < d.asNanos then high else d

/-- The duration with so many nanoseconds, if its seconds are a `u64`. -/
def ofNanos (n : Nat) : Option Duration :=
  if n / 1000000000 < UInt64.size then
    some ⟨n / 1000000000, n % 1000000000, Nat.mod_lt n (by decide)⟩
  else none

/-- `Duration + Duration`, which panics on overflow. -/
def checkedAdd (d e : Duration) : Option Duration := ofNanos (d.asNanos + e.asNanos)

/-- `Duration * u32`, which panics on overflow. -/
def checkedMul (d : Duration) (k : Nat) : Option Duration := ofNanos (d.asNanos * k)

theorem asNanos_of_ofNanos {n : Nat} {d : Duration} (h : ofNanos n = some d) : d.asNanos = n := by
  unfold ofNanos at h
  split at h
  · cases h
    exact Nat.div_add_mod' n 1000000000
  · cases h

theorem asNanos_div (d : Duration) : d.asNanos / 1000000000 = d.secs := by
  have := d.nanos_lt
  unfold asNanos
  omega

theorem asNanos_fromSecs (secs : Nat) : (fromSecs secs).asNanos = secs * 1000000000 := by
  simp only [asNanos, fromSecs, Nat.add_zero]

theorem asNanos_clamp (d : Duration) {low high : Duration} (h : low.asNanos ≤ high.asNanos) :
    (d.clamp low high).asNanos = min (max d.asNanos low.asNanos) high.asNanos := by
  unfold clamp
  split
  · omega
  · split <;> omega

theorem isZero_fromSecs (secs : Nat) : (fromSecs secs).isZero = (secs == 0) := by simp [isZero, fromSecs]

end Duration

/-- `std::time::SystemTime`, in nanoseconds from `UNIX_EPOCH` on.  Its seconds are an `i64`. -/
structure SystemTime where
  nanos : Int
  lower : -9223372036854775808 * 1000000000 ≤ nanos
  upper : nanos < 9223372036854775808 * 1000000000

/-- `UNIX_EPOCH + Duration::from_secs(secs)`. -/
def SystemTime.ofSecs (secs : Nat) (h : secs < 9223372036854775808) : SystemTime :=
  ⟨secs * 1000000000, by omega, by omega⟩

end WarpSocks
