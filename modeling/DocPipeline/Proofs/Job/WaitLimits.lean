import DocPipeline.Proofs.Job.WaitLength
import Mathlib.Data.UInt

/-! The numbers of a wait. A wait counts its checks and computes the end of its time, and it breaks
down where the clock or the count cannot go so far. Every pause but the last one takes the initial
interval at least, so a time that is not too many times as long is over before the count ends.
-/

namespace DocPipeline.Wait

-----------------------------------------------------------------------------------------
-- Breakdowns
-----------------------------------------------------------------------------------------

/-- A failure that is not returned: the program breaks down where it comes up. -/
inductive IsBreakdown : Failure → Prop
  | endBeyondClock : IsBreakdown .endBeyondClock
  | checksUncountable : IsBreakdown .checksUncountable

theorem isBreakdown_iff {failure : Failure}
    : failure.isBreakdown = true ↔ IsBreakdown failure := by
  constructor
  · intro breaks
    cases failure with
    | endBeyondClock => exact .endBeyondClock
    | checksUncountable => exact .checksUncountable
    | _ => cases breaks
  · rintro (_ | _) <;> rfl

/-- The wait ends because the program breaks down. -/
def BreaksDown {σ : Type} (wait : Wait σ) : Prop :=
  ∃ failure, wait.result = some (.error failure) ∧ IsBreakdown failure

/-- Every answer to a question for the status is a status or a failure that can be returned. -/
def Returns {σ : Type} (ask : σ → Except Failure Status × σ) : Prop :=
  ∀ state failure, (ask state).1 = .error failure → ¬ IsBreakdown failure

section Breakdowns

variable {σ : Type} {clock : Clock} {schedule : Schedule} (content : String)
  {ask : σ → Except Failure Status × σ} {start : σ}

/-- The verdict on an answer that can be returned is no breakdown, by cases on the answer. -/
theorem verdict_ne_breakdown (returns : Returns ask) (number time : Nat) {failure : Failure}
    (failed : verdict content number time (answerTo ask start number) = .error failure)
    : ¬ IsBreakdown failure := by
  cases answer : answerTo ask start number with
  | error other =>
      rw [answer] at failed
      cases failed
      exact returns _ _ answer
  | ok status =>
      rw [answer] at failed
      intro breakdown
      cases status <;> cases failed <;> cases breakdown

theorem run_of_unreachable (unreachable : clock.reaches schedule.timeout = false)
    : run clock schedule content ask none start = ⟨[], some (.error .endBeyondClock), start⟩ := by
  simp [run, unreachable]

/-- A wait breaks down exactly when the clock cannot represent its end, or no check that can be
counted is the last one.
-/
theorem breaksDown_iff (returns : Returns ask)
    : (run clock schedule content ask none start).BreaksDown
      ↔ clock.reaches schedule.timeout = false ∨ GoesOnForever clock schedule ask start := by
  cases representable : clock.reaches schedule.timeout with
  | false =>
      rw [run_of_unreachable content representable]
      exact ⟨fun _ => .inl rfl, fun _ => ⟨_, rfl, .endBeyondClock⟩⟩
  | true =>
      rcases run_cases content representable with
        ⟨last, below, ⟨counted, final, _⟩, ends⟩ | ⟨forever, ends⟩
      · rw [ends]
        constructor
        · rintro ⟨failure, failed, breakdown⟩
          exact absurd breakdown
            (verdict_ne_breakdown content returns last _ (Option.some.inj failed))
        · rintro (unreachable | forever)
          · cases unreachable
          · exact absurd final (forever last counted below)
      · rw [ends]
        exact ⟨fun _ => .inr forever, fun _ => ⟨_, rfl, .checksUncountable⟩⟩

/-- The checks of a wait have the numbers from one on, all of which can be counted, and before the
last check the time is not over.
-/
theorem run_checks (clock : Clock) (schedule : Schedule)
    (ask : σ → Except Failure Status × σ) (start : σ)
    : ∃ count < 2 ^ 32,
        (run clock schedule content ask none start).checks
          = (List.range' 1 count).map (checkOf clock schedule ask start)
        ∧ ∀ number, 0 < number → number < count
          → ¬ IsFinal clock schedule ask start number := by
  cases representable : clock.reaches schedule.timeout with
  | false =>
      rw [run_of_unreachable content representable]
      exact ⟨0, by omega, rfl, fun number _ none => absurd none (by omega)⟩
  | true =>
      rcases run_cases content representable with
        ⟨last, below, ⟨_, _, earliest⟩, ends⟩ | ⟨forever, ends⟩
      · rw [ends]
        exact ⟨last, below, rfl, earliest⟩
      · rw [ends]
        exact ⟨2 ^ 32 - 1, by omega, rfl, fun number counted below =>
          forever number counted (by omega)⟩

/-- A wait whose time is at most so many initial intervals long ends before the count does. -/
theorem not_breaksDown_of_short (sleeps : clock.SleepsItOut) (returns : Returns ask)
    {timeout : Interval} (limit : schedule.timeout = some timeout)
    (within : timeout.toNanos < clock.range)
    (ordered : schedule.initial.toNanos ≤ schedule.longestPause.toNanos)
    {count : Nat} (countable : count + 1 < 2 ^ 32)
    (short : timeout.toNanos ≤ count * schedule.initial.toNanos)
    : ¬ (run clock schedule content ask none start).BreaksDown := by
  have reached : clock.reaches schedule.timeout = true :=
    limit ▸ Clock.reaches_some.mpr within
  rw [breaksDown_iff content returns, reached]
  rintro (unreachable | forever)
  · cases unreachable
  · obtain ⟨number, counted, below, expired⟩ :=
      exists_timeIsOver sleeps limit within ordered short
    exact forever number counted (Nat.lt_of_le_of_lt below countable) (.inr expired)

/-- Whenever the program goes to sleep, some of the time is left. -/
theorem time_left_of_mem_dropLast {check : Check} {timeout : Interval}
    (member : check ∈ (run clock schedule content ask none start).checks.dropLast)
    (limit : schedule.timeout = some timeout)
    : check.time * Clock.tick < timeout.toNanos := by
  obtain ⟨count, _, checks, early⟩ := run_checks content clock schedule ask start
  rw [checks, ← List.map_dropLast] at member
  obtain ⟨number, inside, rfl⟩ := List.mem_map.mp member
  have bounds : 0 < number ∧ number < count := by
    rcases count with _ | count
    · simp at inside
    · rw [List.range'_concat, List.dropLast_concat] at inside
      have range := List.mem_range'_1.mp inside
      omega
  by_contra expired
  exact early number bounds.1 bounds.2 (.inr ⟨timeout, limit, Nat.le_of_not_lt expired⟩)

end Breakdowns

/-- With settings that are accepted, a wait for any job has a result, and the program returns it
unless the clock cannot represent the end of the wait or no check that can be counted is the last
one. Neither happens if the clock represents a time of so many initial intervals that one more could
be counted. All checks are counted without a gap, and whenever the program goes to sleep some of the
time is left.
-/
theorem run_breaksDown_iff {σ : Type} (range : Nat) {steps : List Setting} {settings : Settings}
    (accepted : Settings.build steps = .ok settings) (content : String)
    {ask : σ → Except Failure Status × σ} (returns : Returns ask) (start : σ)
    : let clock := Clock.bounded range
      let schedule := settings.schedule
      let wait := run clock schedule content ask none start
      (∃ result, wait.result = some result)
      ∧ (wait.BreaksDown
          ↔ clock.reaches schedule.timeout = false ∨ GoesOnForever clock schedule ask start)
      ∧ (∀ timeout count, schedule.timeout = some timeout → timeout.toNanos < range
          → timeout.toNanos ≤ count * schedule.initial.toNanos → count + 1 < 2 ^ 32
          → ¬ wait.BreaksDown)
      ∧ wait.checks.map Check.number = List.range' 1 wait.checks.length
      ∧ wait.checks.length < 2 ^ 32
      ∧ ∀ check ∈ wait.checks.dropLast, ∀ timeout, schedule.timeout = some timeout
          → check.time * Clock.tick < timeout.toNanos := by
  intro clock schedule wait
  obtain ⟨_, sensible⟩ := Settings.build_eq_ok_iff.mp accepted
  obtain ⟨count, countable, checks, _⟩ := run_checks content clock schedule ask start
  have counted : wait.checks = (List.range' 1 count).map (checkOf clock schedule ask start) :=
    checks
  refine ⟨?_, breaksDown_iff content returns, ?_, ?_, ?_, ?_⟩
  · obtain ⟨_, result, course, _⟩ := run_ending clock schedule content ask start
    exact ⟨result, congrArg Wait.result course⟩
  · intro timeout count limit within short countable
    exact not_breaksDown_of_short content (Clock.sleepsItOut_bounded range) returns limit within
      sensible.ordered countable short
  · rw [counted]
    simp [Function.comp_def, checkOf]
  · rw [counted]
    simpa using countable
  · intro check member timeout limit
    exact time_left_of_mem_dropLast content member limit

/-- A job that never ends is waited for without a breakdown under the standard settings, since ten
minutes are 1200 times half a second.
-/
theorem run_breaksDown_iff_of_standard
    : Settings.build [] = .ok Settings.standard
      ∧ Returns (fun s : Unit => (.ok .pending, s))
      ∧ ¬ (run (.bounded (2 ^ 63 * 10 ^ 9)) Settings.standard.schedule "c"
          (fun s : Unit => (.ok .pending, s)) none ()).BreaksDown := by
  have accepted : Settings.build [] = .ok Settings.standard := by decide
  have returns : Returns (fun s : Unit => (.ok .pending, s)) := fun _ _ failed => by cases failed
  obtain ⟨_, _, short, _⟩ := run_breaksDown_iff (2 ^ 63 * 10 ^ 9) accepted "c" returns ()
  exact ⟨accepted, returns, short (.ofSeconds 600) 1200 rfl (by decide) (by decide) (by decide)⟩

/-- Settings are accepted with which a wait breaks down: a clock of 63 bits for the seconds cannot
represent the end of the longest time, although the job is completed at the first check, and without
a limit a job that never ends is asked more often than can be counted.
-/
theorem run_breaks_down_with_accepted_settings
    : let clock := Clock.bounded (2 ^ 63 * 10 ^ 9)
      let longest := [Setting.waitSeconds (2 ^ 64 - 1)].foldl Settings.set .standard
      let endless := [Setting.waitSeconds 0].foldl Settings.set .standard
      Settings.build [.waitSeconds (2 ^ 64 - 1)] = .ok longest
      ∧ (run clock longest.schedule "c" (fun s : Unit => (.ok .completed, s)) none ()).BreaksDown
      ∧ Settings.build [.waitSeconds 0] = .ok endless
      ∧ (run clock endless.schedule "c" (fun s : Unit => (.ok .pending, s)) none
          ()).BreaksDown := by
  intro clock longest endless
  refine ⟨by decide +kernel, ?_, by decide +kernel, ?_⟩
  · exact ⟨.endBeyondClock, by decide +kernel, .endBeyondClock⟩
  · refine (breaksDown_iff "c" fun _ _ failed => by cases failed).mpr (.inr ?_)
    rintro number counted below (other | ⟨timeout, limit, _⟩)
    · exact other rfl
    · cases limit

end DocPipeline.Wait
