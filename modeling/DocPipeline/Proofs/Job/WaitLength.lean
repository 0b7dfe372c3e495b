import DocPipeline.Proofs.Job.WaitCourse
import DocPipeline.Proofs.Schedule
import Mathlib.Algebra.BigOperators.Intervals
import Mathlib.Algebra.Order.Floor.Div

/-! How long a wait takes. Sleeps are long enough, so as long as the time of a wait is not over its
pauses add up. No pause is shorter than the initial interval, and so a wait with a limit comes to a
final check, whatever the job answers.
-/

namespace DocPipeline

-----------------------------------------------------------------------------------------
-- Sleeps that are long enough
-----------------------------------------------------------------------------------------

namespace Clock

/-- No sleep whose end the clock can represent ends early. -/
def SleepsItOut (clock : Clock) : Prop :=
  ∀ now nanos, now * tick + nanos < clock.range
    → now * tick + nanos ≤ clock.wake now nanos * tick

theorem reaches_some {clock : Clock} {timeout : Interval}
    : clock.reaches (some timeout) = true ↔ timeout.toNanos < clock.range := by
  rw [reaches, Option.all_some, decide_eq_true_eq]

theorem le_ceiling (nanos : Nat) : nanos ≤ ceiling nanos * tick := by
  simp only [ceiling, tick]
  omega

theorem sleepsItOut_exact (range : Nat) : (exact range).SleepsItOut :=
  fun _ _ _ => le_ceiling _

theorem sleepsItOut_bounded (range : Nat) : (bounded range).SleepsItOut := by
  intro now nanos within
  have wakes : (bounded range).wake now nanos = wakeExactly now nanos := if_pos within
  rw [wakes]
  exact le_ceiling _

end Clock

-----------------------------------------------------------------------------------------
-- Pauses that add up
-----------------------------------------------------------------------------------------

namespace Schedule

/-- The nanoseconds of the pauses after the first checks, so many of them. -/
def pausesUpTo (schedule : Schedule) (count : Nat) : Nat :=
  ∑ check ∈ Finset.Icc 1 count, (schedule.pauseAfter check).toNanos

theorem pausesUpTo_succ (schedule : Schedule) (count : Nat)
    : schedule.pausesUpTo (count + 1)
      = schedule.pausesUpTo count + (schedule.pauseAfter (count + 1)).toNanos :=
  Finset.sum_Icc_succ_top (by omega) _

/-- Where the initial interval is no longer than the longest pause, every pause takes it at least.
-/
theorem mul_le_pausesUpTo {schedule : Schedule}
    (ordered : schedule.initial.toNanos ≤ schedule.longestPause.toNanos) (count : Nat)
    : count * schedule.initial.toNanos ≤ schedule.pausesUpTo count := by
  induction count with
  | zero => simp
  | succ count ih =>
      have least := schedule.min_le_toNanos_pauseAfter (count + 1)
      rw [Nat.min_eq_left ordered] at least
      rw [pausesUpTo_succ, Nat.succ_mul]
      omega

end Schedule

namespace Wait

section Times

variable {clock : Clock} {schedule : Schedule} {timeout : Interval}

/-- While the time is not over, the next check comes a pause later, or at the end of the time. -/
theorem le_timeOf_succ (sleeps : clock.SleepsItOut) (limit : schedule.timeout = some timeout)
    (within : timeout.toNanos < clock.range) {count : Nat}
    (early : ¬ timeIsOver schedule (timeOf clock schedule (count + 1)))
    : min timeout.toNanos
          (timeOf clock schedule (count + 1) * Clock.tick
            + (schedule.pauseAfter (count + 1)).toNanos)
      ≤ timeOf clock schedule (count + 2) * Clock.tick := by
  have notYet : timeOf clock schedule (count + 1) * Clock.tick < timeout.toNanos := by
    by_contra expired
    exact early ⟨timeout, limit, Nat.le_of_not_lt expired⟩
  have later : timeOf clock schedule (count + 1) * Clock.tick
        + sleepAfter schedule (count + 1) (timeOf clock schedule (count + 1)) < clock.range
      → timeOf clock schedule (count + 1) * Clock.tick
          + sleepAfter schedule (count + 1) (timeOf clock schedule (count + 1))
        ≤ timeOf clock schedule (count + 2) * Clock.tick := by
    rw [timeOf]
    exact sleeps _ _
  rw [sleepAfter, limit] at later
  dsimp only at later
  omega

/-- As long as the time is not over, so many checks take so many pauses, by induction on their
number.
-/
theorem pausesUpTo_le_timeOf (sleeps : clock.SleepsItOut)
    (limit : schedule.timeout = some timeout) (within : timeout.toNanos < clock.range)
    (count : Nat)
    (early : ∀ number, 0 < number → number ≤ count
      → ¬ timeIsOver schedule (timeOf clock schedule number))
    : min timeout.toNanos (schedule.pausesUpTo count)
      ≤ timeOf clock schedule (count + 1) * Clock.tick := by
  induction count with
  | zero => simp [Schedule.pausesUpTo]
  | succ count ih =>
      have before := ih fun number counted below => early number counted (by omega)
      have later := le_timeOf_succ sleeps limit within (early (count + 1) (by omega) (by omega))
      rw [Schedule.pausesUpTo_succ]
      change _ ≤ timeOf clock schedule (count + 2) * Clock.tick
      omega

/-- If the time is not over at a check, the pauses before it take less than the time. -/
theorem pausesUpTo_lt (sleeps : clock.SleepsItOut) (limit : schedule.timeout = some timeout)
    (within : timeout.toNanos < clock.range) {count : Nat}
    (early : ∀ number, 0 < number → number ≤ count + 1
      → ¬ timeIsOver schedule (timeOf clock schedule number))
    : schedule.pausesUpTo count < timeout.toNanos := by
  have passed := pausesUpTo_le_timeOf sleeps limit within count
    fun number counted below => early number counted (by omega)
  by_contra long
  rw [Nat.min_eq_left (Nat.le_of_not_lt long)] at passed
  exact early (count + 1) (by omega) (by omega) ⟨timeout, limit, passed⟩

/-- A time of so many initial intervals is over after so many pauses. -/
theorem exists_timeIsOver (sleeps : clock.SleepsItOut) (limit : schedule.timeout = some timeout)
    (within : timeout.toNanos < clock.range)
    (ordered : schedule.initial.toNanos ≤ schedule.longestPause.toNanos) {count : Nat}
    (short : timeout.toNanos ≤ count * schedule.initial.toNanos)
    : ∃ number, 0 < number ∧ number ≤ count + 1
        ∧ timeIsOver schedule (timeOf clock schedule number) := by
  by_contra never
  have early : ∀ number, 0 < number → number ≤ count + 1
      → ¬ timeIsOver schedule (timeOf clock schedule number) := by
    intro number counted below expired
    exact never ⟨number, counted, below, expired⟩
  have long := pausesUpTo_lt sleeps limit within early
  have least := Schedule.mul_le_pausesUpTo ordered count
  omega

end Times

-----------------------------------------------------------------------------------------
-- Whole waits
-----------------------------------------------------------------------------------------

/-- No check that can be counted is the last one. -/
def GoesOnForever {σ : Type} (clock : Clock) (schedule : Schedule)
    (ask : σ → Except Failure Status × σ) (start : σ) : Prop :=
  ∀ number, 0 < number → number < 2 ^ 32 → ¬ IsFinal clock schedule ask start number

section Whole

variable {σ : Type} {clock : Clock} {schedule : Schedule}
  {ask : σ → Except Failure Status × σ} {start : σ}

/-- Where some check is final, one of the checks up to that is the first final one. -/
theorem exists_firstFinal {number : Nat} (counted : 0 < number)
    (final : IsFinal clock schedule ask start number)
    : ∃ last ≤ number, IsFirstFinal clock schedule ask start last := by
  by_contra none
  have no_first : ¬ ∃ last < number + 1, IsFirstFinal clock schedule ask start last := by
    rintro ⟨last, below, first⟩
    exact none ⟨last, Nat.le_of_lt_succ below, first⟩
  exact not_isFinal_of_no_first no_first counted (Nat.lt_succ_self number) final

theorem IsFirstFinal.unique {last other : Nat} (first : IsFirstFinal clock schedule ask start last)
    (also : IsFirstFinal clock schedule ask start other) : last = other := by
  rcases Nat.lt_trichotomy last other with before | same | behind
  · exact absurd first.2.1 (also.2.2 last first.1 before)
  · exact same
  · exact absurd also.2.1 (first.2.2 other also.1 behind)

/-- A wait whose end the clock represents makes the checks up to the first final one, or all that
can be counted.
-/
theorem run_cases (content : String) (representable : clock.reaches schedule.timeout = true)
    : (∃ last < 2 ^ 32, IsFirstFinal clock schedule ask start last
        ∧ run clock schedule content ask none start
          = endingAt clock schedule content ask start 1 last)
      ∨ GoesOnForever clock schedule ask start
        ∧ run clock schedule content ask none start
          = ⟨(List.range' 1 (2 ^ 32 - 1)).map (checkOf clock schedule ask start),
              some (.error .checksUncountable), stateAfter ask start (2 ^ 32 - 1)⟩ := by
  rw [run_eq_goingOn content ask start representable]
  by_cases some : ∃ last < 2 ^ 32, IsFirstFinal clock schedule ask start last
  · obtain ⟨last, below, first⟩ := some
    exact .inl ⟨last, below, first,
      goingOn_eq_endingAt content first (by unfold countableChecks; omega)⟩
  · refine .inr ⟨?_, goingOn_eq_uncountable content some⟩
    intro number counted below
    exact not_isFinal_of_no_first some counted below

/-- The checks and the result of a wait with a first final check: those of the timetable, as far as
they can be counted.
-/
theorem run_of_firstFinal (content : String) (representable : clock.reaches schedule.timeout = true)
    {last : Nat} (first : IsFirstFinal clock schedule ask start last)
    : (run clock schedule content ask none start).checks.length = min last (2 ^ 32 - 1)
      ∧ (run clock schedule content ask none start).result
        = some (if last < 2 ^ 32
            then verdict content last (timeOf clock schedule last) (answerTo ask start last)
            else .error .checksUncountable) := by
  rcases run_cases content representable with ⟨other, below, also, ends⟩ | ⟨forever, ends⟩
  · obtain rfl := first.unique also
    rw [ends, if_pos below, Nat.min_eq_left (by omega)]
    simp [endingAt]
  · have late : ¬ last < 2 ^ 32 := fun below => forever last first.1 below first.2.1
    rw [ends, if_neg late, Nat.min_eq_right (by omega)]
    simp

end Whole

/-- With settings that are accepted and a limit whose end the clock represents, a wait ends at a
first final check, however long the job goes on: the pauses before the last but one check take less
than the time, so there are no more checks than the time has initial intervals, and one. The result
is the verdict on that check, unless the check cannot be counted; and it can be counted if the time
is short enough.
-/
theorem run_ends_within_limit {σ : Type} {clock : Clock} (sleeps : clock.SleepsItOut)
    {steps : List Setting} {settings : Settings} (accepted : Settings.build steps = .ok settings)
    {timeout : Interval} (limit : settings.schedule.timeout = some timeout)
    (within : timeout.toNanos < clock.range) (content : String)
    (ask : σ → Except Failure Status × σ) (start : σ)
    : let schedule := settings.schedule
      let initial := schedule.initial.toNanos
      let wait := run clock schedule content ask none start
      ∃ last, IsFirstFinal clock schedule ask start last
        ∧ (2 ≤ last
            → ∑ check ∈ Finset.Icc 1 (last - 2), (schedule.pauseAfter check).toNanos
              < timeout.toNanos)
        ∧ last ≤ timeout.toNanos ⌈/⌉ initial + 1
        ∧ wait.checks.length = min last (2 ^ 32 - 1)
        ∧ wait.result
          = some (if last < 2 ^ 32
              then verdict content last (timeOf clock schedule last) (answerTo ask start last)
              else .error .checksUncountable)
        ∧ (timeout.toNanos ≤ (2 ^ 32 - 3) * initial → last < 2 ^ 32) := by
  intro schedule initial wait
  obtain ⟨_, sensible⟩ := Settings.build_eq_ok_iff.mp accepted
  have representable : clock.reaches schedule.timeout = true :=
    limit ▸ Clock.reaches_some.mpr within
  have enough : timeout.toNanos ≤ timeout.toNanos ⌈/⌉ initial * initial := by
    rw [Nat.mul_comm]
    exact (ceilDiv_le_iff_le_mul sensible.pauses).mp (Nat.le_refl _)
  obtain ⟨number, counted, soon, expired⟩ :=
    exists_timeIsOver sleeps limit within sensible.ordered enough
  obtain ⟨last, before, first⟩ := exists_firstFinal counted
    (.inr expired : IsFinal clock schedule ask start number)
  have bound : last ≤ timeout.toNanos ⌈/⌉ initial + 1 := Nat.le_trans before soon
  obtain ⟨checks, result⟩ := run_of_firstFinal content representable first
  refine ⟨last, first, ?_, bound, checks, result, ?_⟩
  · intro several
    refine pausesUpTo_lt sleeps limit within fun earlier positive below expired => ?_
    exact first.2.2 earlier positive (by omega) (.inr expired)
  · intro short
    have intervals : timeout.toNanos ⌈/⌉ initial ≤ 2 ^ 32 - 3 := by
      rw [ceilDiv_le_iff_le_mul sensible.pauses, Nat.mul_comm]
      exact short
    omega

/-- A job that never ends is asked three times at most in a second of pauses a nanosecond over half
a second, which is as often as the bound allows.
-/
theorem run_ends_within_limit_of_endless_job
    : let clock := Clock.exact (2 ^ 80)
      let ask := fun s : Unit => (.ok .pending, s)
      let wait := run clock hastySchedule "c" ask none ()
      Settings.build [.schedule hastySchedule]
        = .ok ([Setting.schedule hastySchedule].foldl Settings.set .standard)
      ∧ hastySchedule.timeout = some (.ofSeconds 1)
      ∧ (Interval.ofSeconds 1).toNanos < clock.range
      ∧ (Interval.ofSeconds 1).toNanos ⌈/⌉ hastySchedule.initial.toNanos + 1 = 3
      ∧ wait.checks.length ≤ 3 := by
  intro clock ask wait
  have accepted : Settings.build [.schedule hastySchedule]
      = .ok ([Setting.schedule hastySchedule].foldl Settings.set .standard) := by
    decide
  have bound : (Interval.ofSeconds 1).toNanos ⌈/⌉ hastySchedule.initial.toNanos + 1 = 3 := by
    decide
  obtain ⟨last, _, _, most, length, _⟩ :=
    run_ends_within_limit (Clock.sleepsItOut_exact (2 ^ 80)) accepted rfl (by decide) "c" ask ()
  refine ⟨accepted, rfl, by decide, bound, ?_⟩
  have most : last ≤ 3 := bound ▸ most
  exact length ▸ (Nat.min_le_left _ _).trans most

end Wait
end DocPipeline
