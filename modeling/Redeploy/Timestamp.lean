/-
Points of wall-clock time in UTC, to the nanosecond. A leap second is the second before it with a fraction of a
second or more.
-/
namespace Redeploy

/-- seconds since 1970-01-01T00:00:00Z and nanoseconds; during a leap second the nanoseconds are 10^9 and more -/
structure Timestamp where
  seconds : Int
  nanos : Nat
deriving DecidableEq, Repr, Inhabited

namespace Timestamp

/-- nanoseconds since 1970 -/
def toNanos (t : Timestamp) : Int := t.seconds * 1000000000 + t.nanos

def ofNanos (n : Int) : Timestamp := ⟨n.fdiv 1000000000, (n.fmod 1000000000).toNat⟩

/-- seconds since midnight -/
def secondOfDay (t : Timestamp) : Int := t.seconds.fmod 86400

def inLeapSecond (t : Timestamp) : Bool := decide (1000000000 ≤ t.nanos)

/-- nanoseconds from `past` to `t`; negative when `past` is later. A leap second counts as one more when it is the earlier
of the two times of day -/
def nanosSince (t past : Timestamp) : Int :=
  let leap : Int :=
    if past.secondOfDay < t.secondOfDay ∧ past.inLeapSecond then 1
    else if t.secondOfDay < past.secondOfDay ∧ t.inLeapSecond then -1
    else 0
  t.toNanos - past.toNanos + leap * 1000000000

/-- whole seconds from `past` to `t`, rounded toward zero; negative when `past` is later -/
def secondsSince (t past : Timestamp) : Int := (t.nanosSince past).tdiv 1000000000

/-- the time `ms` milliseconds before -/
def minusMillis (t : Timestamp) (ms : Int) : Timestamp := ofNanos (t.toNanos - ms * 1000000)

/-- the time `n` nanoseconds later -/
def plusNanos (t : Timestamp) (n : Nat) : Timestamp := ofNanos (t.toNanos + n)

end Timestamp

end Redeploy
