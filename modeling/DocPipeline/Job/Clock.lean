import DocPipeline.Interval

/-! The clock of a wait. It shows the milliseconds since the wait began and moves only while the
waiting program sleeps, so a wait is a function of the answers it gets. Lengths of sleep are
exact, in nanoseconds.
-/

namespace DocPipeline

/-- A clock that wakes a sleeper. -/
structure Clock where
  /-- The nanoseconds from the beginning of the wait to the first moment that the clock cannot
  represent.
  -/
  range : Nat
  /-- When a sleep of so many nanoseconds ends that begins at a millisecond. -/
  wake : Nat → Nat → Nat

namespace Clock

/-- The nanoseconds of a millisecond. -/
def tick : Nat := 10 ^ 6

/-- The first whole millisecond in which so many nanoseconds have passed. -/
def ceiling (nanos : Nat) : Nat :=
  (nanos + (tick - 1)) / tick

/-- The end of an exact sleep: the first whole millisecond in which the time is over. -/
def wakeExactly (now nanos : Nat) : Nat :=
  ceiling (now * tick + nanos)

/-- A clock whose sleeps are exact. -/
def exact (range : Nat) : Clock :=
  ⟨range, wakeExactly⟩

/-- The length of a sleep that would otherwise end beyond the clock: thirty years. -/
def longSleep : Nat :=
  30 * 365 * 86400 * 10 ^ 9

/-- A clock whose sleeps are exact as long as it can represent their end. -/
def bounded (range : Nat) : Clock where
  range := range
  wake now nanos :=
    if now * tick + nanos < range then wakeExactly now nanos else wakeExactly now longSleep

/-- The clock can represent the end of a wait of this length. -/
def reaches (clock : Clock) (timeout : Option Interval) : Bool :=
  timeout.all fun t => t.toNanos < clock.range

end Clock
end DocPipeline
