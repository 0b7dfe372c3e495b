import DocPipeline.Interval

/-! Intervals in exact arithmetic. Comparing and multiplying the two counts of an interval is
comparing and multiplying its exact length, up to the length of the longest interval.
-/

namespace DocPipeline

namespace Interval

@[simp]
theorem toNanos_longest : longest.toNanos = 2 ^ 64 * 10 ^ 9 - 1 := by
  decide

/-- Intervals of the same length are equal, since the nanoseconds never make up a second. -/
theorem toNanos_inj {a b : Interval} : a.toNanos = b.toNanos ↔ a = b := by
  obtain ⟨seconds, nanos, _, below⟩ := a
  obtain ⟨others, rest, _, belowToo⟩ := b
  simp only [toNanos, mk.injEq]
  omega

theorem toNanos_le_longest (d : Interval) : d.toNanos ≤ longest.toNanos := by
  have seconds := d.seconds_lt
  have nanos := d.nanos_lt
  rw [toNanos_longest, toNanos]
  omega

theorem isZero_eq_false_iff {d : Interval} : d.isZero = false ↔ 0 < d.toNanos := by
  simp only [isZero, toNanos, Bool.and_eq_false_iff, beq_eq_false_iff_ne]
  omega

/-- Comparing the counts compares the lengths, since the nanoseconds never make up a second. -/
theorem before_iff {a b : Interval} : a.before b = true ↔ a.toNanos < b.toNanos := by
  have left := a.nanos_lt
  have right := b.nanos_lt
  simp only [before, toNanos, Bool.or_eq_true, decide_eq_true_eq, Bool.and_eq_true,
    beq_iff_eq]
  omega

@[simp]
theorem toNanos_shorter (a b : Interval) : (a.shorter b).toNanos = min a.toNanos b.toNanos := by
  by_cases before : b.before a = true
  · have less := before_iff.mp before
    rw [shorter, if_pos before, Nat.min_eq_right (Nat.le_of_lt less)]
  · have most : ¬ b.toNanos < a.toNanos := fun less => before (before_iff.mpr less)
    rw [shorter, if_neg before, Nat.min_eq_left (Nat.le_of_not_lt most)]

/-- Parts make up an interval exactly when their length is one that an interval can have. -/
theorem ofParts?_cases (seconds nanos : Nat)
    : (∃ d, ofParts? seconds nanos = some d ∧ d.toNanos = seconds * 10 ^ 9 + nanos)
      ∨ ofParts? seconds nanos = none ∧ longest.toNanos < seconds * 10 ^ 9 + nanos := by
  unfold ofParts?
  split
  next fits =>
    refine .inl ⟨_, rfl, ?_⟩
    simp only [toNanos]
    omega
  next beyond =>
    refine .inr ⟨rfl, ?_⟩
    rw [toNanos_longest]
    omega

/-- A multiple of an interval has the multiple of its length, or the greatest length. -/
@[simp]
theorem toNanos_scale (d : Interval) (factor : Nat)
    : (d.scale factor).toNanos = min (d.toNanos * factor) longest.toNanos := by
  have length : d.seconds * factor * 10 ^ 9 + d.nanos * factor = d.toNanos * factor := by
    rw [toNanos, Nat.add_mul, Nat.mul_right_comm]
  unfold scale
  rcases ofParts?_cases (d.seconds * factor) (d.nanos * factor) with
    ⟨e, made, exact⟩ | ⟨none, beyond⟩
  · rw [made, Option.getD_some, ← length, ← exact, Nat.min_eq_left (toNanos_le_longest e)]
  · rw [none, Option.getD_none, ← length, Nat.min_eq_right (Nat.le_of_lt beyond)]

end Interval

end DocPipeline
