/-!
# Time

Two clocks run side by side. The *wall clock* counts milliseconds since the
epoch in a signed 64-bit word and decides when holds lapse; the *stopwatch*
counts from the start of the run and decides how long somebody waits for a lock.
Both advance together; a `Moment` is a reading of both.

A wall clock set before the epoch reads zero, and adding to a wall time stops at
the last representable millisecond instead of wrapping round (`Stamp.later`).
-/

namespace Tenure

/-! ## Wall times

A wall time is an `Int`: milliseconds since the epoch. -/

namespace Stamp

/-- The last representable wall time. -/
def latest : Int := 0x7fffffffffffffff

/-- The first representable wall time. -/
def earliest : Int := -0x8000000000000000

/-- The wall time `ms` milliseconds later, held within the representable range. -/
def later (s ms : Int) : Int := max earliest (min latest (s + ms))

/-- Later is not earlier. -/
theorem le_later {s ms : Int} (h : 0 ≤ ms) (hs : s ≤ latest) : s ≤ later s ms := by
  simp only [later, earliest, latest] at *
  omega

end Stamp

/-- A count of milliseconds seen as a signed 64-bit word, as wall times are. -/
def wordOfMillis (ms : Nat) : Int := (ms : Int).bmod UInt64.size

/-- A reading of both clocks. -/
structure Moment where
  /-- the wall clock's reading when the stopwatch was started -/
  origin : Int
  /-- milliseconds on the stopwatch -/
  elapsed : Nat
  deriving DecidableEq, Repr

namespace Moment

/-- What the wall clock reads; times before the epoch read as zero. -/
def stamp (m : Moment) : Int :=
  if m.origin + m.elapsed < 0 then 0 else (m.origin + m.elapsed).bmod UInt64.size

/-- The stopwatch in nanoseconds. -/
def nanos (m : Moment) : Nat := m.elapsed * 1000000

end Moment

end Tenure
