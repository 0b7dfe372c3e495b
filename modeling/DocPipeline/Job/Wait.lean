import DocPipeline.Failure
import DocPipeline.Job.Clock
import DocPipeline.Job.Status
import DocPipeline.Schedule

/-! Waiting for a job. The job is asked for its status, the program sleeps, and the job is asked
again, until the answer is final or the time is over. The last check is made when the time is
over and not before, so a job that finishes within its time is never given up.
-/

namespace DocPipeline

/-- A question for the status, and what came back. -/
structure Check where
  /-- Checks count from one. -/
  number : Nat
  /-- The millisecond of the wait in which the question was asked. -/
  time : Nat
  answer : Except Failure Status

/-- A wait that has ended: with a result, or without one because it was given up. -/
structure Wait (σ : Type) where
  /-- All checks in their order. -/
  checks : List Check
  /-- The number of checks until the job was completed, or why it will not be. None when the
  wait was given up.
  -/
  result : Option (Except Failure Nat)
  /-- What the questions have left behind. -/
  state : σ

namespace Wait

/-- The largest number of checks that can be counted. -/
def countableChecks : Nat := 2 ^ 32 - 1

/-- The millisecond of the check that follows a check at the given one; none when the time is
over. Nobody sleeps past the end of the wait.
-/
def nextTime (clock : Clock) (schedule : Schedule) (number now : Nat) : Option Nat :=
  let pause := (schedule.pauseAfter number).toNanos
  match schedule.timeout with
  | none => some (clock.wake now pause)
  | some timeout =>
    if timeout.toNanos ≤ now * Clock.tick then none
    else some (clock.wake now (min pause (timeout.toNanos - now * Clock.tick)))

/-- The result that an answer settles; none when the job has to be asked again. -/
def settled (content : String) (number : Nat)
    : Except Failure Status → Option (Except Failure Nat)
  | .error failure => some (.error failure)
  | .ok .completed => some (.ok number)
  | .ok (.failed reason) => some (.error (.extractionFailed content reason))
  | .ok .pending => none

/-- The wait with one more check before all others. -/
def after {σ : Type} (check : Check) (wait : Wait σ) : Wait σ :=
  { wait with checks := check :: wait.checks }

/-- The wait from a check on, with `left` more checks to be counted. A sleep that ends after the
millisecond `limit` is the one in which the wait is given up.
-/
def continueFrom {σ : Type} (clock : Clock) (schedule : Schedule) (content : String)
    (ask : σ → Except Failure Status × σ) (limit : Option Nat) (number now : Nat)
    : Nat → σ → Wait σ
  | 0, state => ⟨[], some (.error .checksUncountable), state⟩
  | left + 1, state =>
    let (answer, state) := ask state
    after ⟨number, now, answer⟩ <|
      match settled content number answer with
      | some result => ⟨[], some result, state⟩
      | none =>
        match nextTime clock schedule number now with
        | none => ⟨[], some (.error (.stillPending content (now / 1000) number)), state⟩
        | some next =>
          if limit.any (· < next) then ⟨[], none, state⟩
          else continueFrom clock schedule content ask limit (number + 1) next left state

/-- Waits until the job is done, given up after the millisecond `limit` if there is one. A wait
whose end the clock cannot represent does not begin.
-/
def run {σ : Type} (clock : Clock) (schedule : Schedule) (content : String)
    (ask : σ → Except Failure Status × σ) (limit : Option Nat) (state : σ) : Wait σ :=
  if clock.reaches schedule.timeout then
    continueFrom clock schedule content ask limit 1 0 countableChecks state
  else ⟨[], some (.error .endBeyondClock), state⟩

/-- The checks that returned a status, with that status. -/
def reports {σ : Type} (wait : Wait σ) : List (Nat × Status) :=
  wait.checks.filterMap fun check =>
    match check.answer with
    | .ok status => some (check.number, status)
    | .error _ => none

end Wait
end DocPipeline
