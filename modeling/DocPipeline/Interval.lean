import DocPipeline.Number.Power

/-! Lengths of time, counted in whole seconds and the nanoseconds beyond them, as far as a
64-bit number of seconds reaches. Multiplying one carries between the two counts and stops at
the longest interval; `toNanos` gives the exact length.
-/

namespace DocPipeline

/-- A length of time. -/
structure Interval where
  seconds : Nat
  nanos : Nat
  seconds_lt : seconds < 2 ^ 64
  nanos_lt : nanos < 10 ^ 9
deriving DecidableEq, Repr

namespace Interval

/-- The exact length in nanoseconds. -/
def toNanos (d : Interval) : Nat :=
  d.seconds * 10 ^ 9 + d.nanos

/-- The longest interval. -/
def longest : Interval :=
  ⟨2 ^ 64 - 1, 10 ^ 9 - 1, by decide, by decide⟩

/-- The interval of no length. -/
def zero : Interval :=
  ⟨0, 0, by decide, by decide⟩

/-- Nothing is to be waited for. -/
def isZero (d : Interval) : Bool :=
  d.seconds == 0 && d.nanos == 0

/-- So many whole seconds. -/
def ofSeconds (n : UInt64) : Interval :=
  ⟨n.toNat, 0, n.toNat_lt, by decide⟩

/-- So many milliseconds. -/
def ofMillis (n : UInt64) : Interval :=
  ⟨n.toNat / 1000, n.toNat % 1000 * 10 ^ 6,
    Nat.lt_of_le_of_lt (Nat.div_le_self _ _) n.toNat_lt, by omega⟩

/-- The interval of the given seconds and nanoseconds, the nanoseconds carried over; none when
it is too long.
-/
def ofParts? (seconds nanos : Nat) : Option Interval :=
  if h : seconds + nanos / 10 ^ 9 < 2 ^ 64 then
    some ⟨seconds + nanos / 10 ^ 9, nanos % 10 ^ 9, h, Nat.mod_lt _ (by decide)⟩
  else none

/-- The interval `factor` times over, or the longest one if that is shorter. -/
def scale (d : Interval) (factor : Nat) : Interval :=
  (ofParts? (d.seconds * factor) (d.nanos * factor)).getD longest

/-- Shorter intervals come first. -/
def before (a b : Interval) : Bool :=
  a.seconds < b.seconds || (a.seconds == b.seconds && a.nanos < b.nanos)

/-- The shorter of two intervals. -/
def shorter (a b : Interval) : Interval :=
  if b.before a then b else a

/-- A number of digits after the point, with the zeros at its end dropped. -/
def fraction (width n : Nat) : List Char :=
  let digits := (Nat.toDigits 10 n).leftpad width '0'
  (digits.reverse.dropWhile (· == '0')).reverse

/-- A count with its fraction of `width` digits, and the unit. -/
def written (whole part width : Nat) (unit : String) : String :=
  let tail := fraction width part
  toString whole ++ (if tail.isEmpty then "" else "." ++ String.ofList tail) ++ unit

/-- The interval in the largest unit of which it holds one. -/
def text (d : Interval) : String :=
  if 0 < d.seconds then written d.seconds d.nanos 9 "s"
  else if 10 ^ 6 ≤ d.nanos then written (d.nanos / 10 ^ 6) (d.nanos % 10 ^ 6) 6 "ms"
  else if 10 ^ 3 ≤ d.nanos then written (d.nanos / 10 ^ 3) (d.nanos % 10 ^ 3) 3 "µs"
  else written d.nanos 0 0 "ns"

end Interval
end DocPipeline
