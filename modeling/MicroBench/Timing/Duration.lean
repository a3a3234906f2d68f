/-! # Durations

  A duration is a number of seconds, which is a 64-bit word, and of nanoseconds below a second.
  Durations are ordered by their seconds, then by their nanoseconds.

  As a floating point number of seconds, a duration is the sum of its two parts, each operation
  rounded to the nearest double.
-/

namespace MicroBench

/-- A span of time. -/
structure Duration where
  seconds : UInt64
  nanos : UInt32
  nanos_lt : nanos.toNat < 1000000000
  deriving DecidableEq

namespace Duration

/-- No time at all. -/
def zero : Duration := ⟨0, 0, by decide⟩

instance : Inhabited Duration := ⟨zero⟩

/-- A duration from its parts, if the second part is below a second. -/
def ofParts? (seconds : UInt64) (nanos : UInt32) : Option Duration :=
  if h : nanos.toNat < 1000000000 then some ⟨seconds, nanos, h⟩ else none

/-- A duration from a number of nanoseconds. -/
def ofNanos (n : Nat) : Duration where
  seconds := UInt64.ofNat (n / 1000000000)
  nanos := UInt32.ofNat (n % 1000000000)
  nanos_lt := by
    have : n % 1000000000 < 1000000000 := Nat.mod_lt n (by decide)
    rw [UInt32.toNat_ofNat', Nat.mod_eq_of_lt (by omega)]
    exact this

/-- Tells whether the first duration is at most as long as the second. -/
def le (a b : Duration) : Bool :=
  a.seconds < b.seconds || (a.seconds == b.seconds && a.nanos ≤ b.nanos)

/-- The number of seconds as a double. -/
def toSeconds (d : Duration) : Float := d.seconds.toFloat + d.nanos.toFloat / 1000000000

end Duration

end MicroBench
