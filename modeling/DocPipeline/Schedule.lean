import DocPipeline.Interval

/-! How often a job is asked for its status. The pause between two checks starts at the initial
interval, doubles after every check and never exceeds the longest pause.
-/

namespace DocPipeline

/-- When to check on a job, and for how long. -/
structure Schedule where
  initial : Interval
  longestPause : Interval
  /-- None waits for as long as the job runs. -/
  timeout : Option Interval
deriving DecidableEq, Repr

namespace Schedule

/-- Half a second, doubling up to ten seconds, for ten minutes. -/
def default : Schedule :=
  ⟨.ofMillis 500, .ofSeconds 10, some (.ofSeconds 600)⟩

/-- The largest factor by which the initial interval is ever multiplied. -/
def longestFactor : Nat := 2 ^ 32 - 1

/-- How many times the initial interval the pause after a check may be: it doubles from check to
check, up to the largest factor. Checks count from one, and number zero is taken for the first.
-/
def factor (check : Nat) : Nat :=
  min (2 ^ min (check - 1) 32) longestFactor

/-- The pause after a check. -/
def pauseAfter (schedule : Schedule) (check : Nat) : Interval :=
  (schedule.initial.scale (factor check)).shorter schedule.longestPause

end Schedule
end DocPipeline
