import DocPipeline.Job.Wait
import Mathlib.Data.Nat.Init
import Mathlib.Logic.Basic

/-! The course of a wait. A service answers the questions of a wait one after the other, so its
answers form a stream, and the times of the questions follow from the schedule and the clock alone.
The first final answer, or the first question at the end of the time, decides the result.
-/

namespace DocPipeline.Wait

-----------------------------------------------------------------------------------------
-- The stream of answers and the times of the questions
-----------------------------------------------------------------------------------------

/-- What the first questions leave behind, so many of them. -/
def stateAfter {σ : Type} (ask : σ → Except Failure Status × σ) (start : σ) : Nat → σ
  | 0 => start
  | count + 1 => (ask (stateAfter ask start count)).2

/-- The answer to the question of a number, counted from one. -/
def answerTo {σ : Type} (ask : σ → Except Failure Status × σ) (start : σ) (number : Nat)
    : Except Failure Status :=
  (ask (stateAfter ask start (number - 1))).1

/-- The nanoseconds to sleep after the check of a number at a millisecond: the pause of the
schedule, or what is left of the time if that is less.
-/
def sleepAfter (schedule : Schedule) (number now : Nat) : Nat :=
  match schedule.timeout with
  | none => (schedule.pauseAfter number).toNanos
  | some timeout =>
    min (schedule.pauseAfter number).toNanos (timeout.toNanos - now * Clock.tick)

/-- The millisecond of the check of a number, as long as the wait goes on. -/
def timeOf (clock : Clock) (schedule : Schedule) : Nat → Nat
  | 0 => 0
  | 1 => 0
  | number + 2 =>
    let now := timeOf clock schedule (number + 1)
    clock.wake now (sleepAfter schedule (number + 1) now)

/-- The time of the wait is over at a millisecond. -/
def timeIsOver (schedule : Schedule) (now : Nat) : Prop :=
  ∃ timeout, schedule.timeout = some timeout ∧ timeout.toNanos ≤ now * Clock.tick

/-- The check of a number is the last one if none before it was: its answer is no longer pending,
or the time is over.
-/
def IsFinal {σ : Type} (clock : Clock) (schedule : Schedule)
    (ask : σ → Except Failure Status × σ) (start : σ) (number : Nat) : Prop :=
  answerTo ask start number ≠ .ok .pending ∨ timeIsOver schedule (timeOf clock schedule number)

/-- The check of a number is the first final one. -/
def IsFirstFinal {σ : Type} (clock : Clock) (schedule : Schedule)
    (ask : σ → Except Failure Status × σ) (start : σ) (number : Nat) : Prop :=
  0 < number ∧ IsFinal clock schedule ask start number
    ∧ ∀ earlier, 0 < earlier → earlier < number → ¬ IsFinal clock schedule ask start earlier

/-- What a last check means for the wait. An answer that is still pending means that the time was
over, and counts the whole seconds that have passed.
-/
def verdict (content : String) (number time : Nat)
    : Except Failure Status → Except Failure Nat
  | .error failure => .error failure
  | .ok .completed => .ok number
  | .ok (.failed reason) => .error (.extractionFailed content reason)
  | .ok .pending => .error (.stillPending content (time / 1000) number)

/-- The check of a number. -/
def checkOf {σ : Type} (clock : Clock) (schedule : Schedule)
    (ask : σ → Except Failure Status × σ) (start : σ) (number : Nat) : Check :=
  ⟨number, timeOf clock schedule number, answerTo ask start number⟩

/-- The wait that ends with the check of a number. -/
def endingAt {σ : Type} (clock : Clock) (schedule : Schedule) (content : String)
    (ask : σ → Except Failure Status × σ) (start : σ) (first number : Nat) : Wait σ where
  checks := (List.range' first (number + 1 - first)).map (checkOf clock schedule ask start)
  result := some (verdict content number (timeOf clock schedule number)
    (answerTo ask start number))
  state := stateAfter ask start number

-----------------------------------------------------------------------------------------
-- One check of a wait
-----------------------------------------------------------------------------------------

/-- A check at the end of the time has no successor; any other one has that of the timetable,
by cases on the limit of the schedule.
-/
theorem nextTime_eq_none_iff {clock : Clock} {schedule : Schedule} {number now : Nat}
    : nextTime clock schedule number now = none ↔ timeIsOver schedule now := by
  unfold nextTime timeIsOver
  cases schedule.timeout with
  | none => simp
  | some timeout =>
      by_cases expired : timeout.toNanos ≤ now * Clock.tick <;> simp [expired]

/-- Before the end of the time the next check comes after one sleep, by cases on the limit of the
schedule.
-/
theorem nextTime_of_not_over {clock : Clock} {schedule : Schedule} {number now : Nat}
    (early : ¬ timeIsOver schedule now)
    : nextTime clock schedule number now
      = some (clock.wake now (sleepAfter schedule number now)) := by
  unfold timeIsOver at early
  unfold nextTime sleepAfter
  cases limit : schedule.timeout with
  | none => rfl
  | some timeout =>
      have notYet : ¬ timeout.toNanos ≤ now * Clock.tick :=
        fun expired => early ⟨timeout, limit, expired⟩
      simp [notYet]

/-- An answer settles the result exactly when it is not pending, by cases on the answer. -/
theorem settled_eq_none_iff {content : String} {number : Nat} {answer : Except Failure Status}
    : settled content number answer = none ↔ answer = .ok .pending := by
  cases answer with
  | error failure => simp [settled]
  | ok status => cases status <;> simp [settled]

/-- An answer that is not pending settles the result on the verdict, by cases on the answer. -/
theorem settled_of_ne_pending {content : String} {number time : Nat}
    {answer : Except Failure Status} (final : answer ≠ .ok .pending)
    : settled content number answer = some (verdict content number time answer) := by
  cases answer with
  | error failure => rfl
  | ok status =>
      cases status with
      | pending => exact absurd rfl final
      | completed => rfl
      | failed reason => rfl

section Course

variable {σ : Type} (clock : Clock) (schedule : Schedule) (content : String)
  (ask : σ → Except Failure Status × σ) (start : σ)

/-- The wait from the check of a number on, when all checks before it were pending. -/
def goingOn (number left : Nat) : Wait σ :=
  continueFrom clock schedule content ask none number (timeOf clock schedule number) left
    (stateAfter ask start (number - 1))

variable {clock schedule ask start}

/-- One check, and what its answer and its time make of the rest of the wait. -/
theorem goingOn_succ (before left : Nat)
    : goingOn clock schedule content ask start (before + 1) (left + 1)
      = after (checkOf clock schedule ask start (before + 1))
          (match settled content (before + 1) (answerTo ask start (before + 1)) with
          | some result => ⟨[], some result, stateAfter ask start (before + 1)⟩
          | none =>
            match nextTime clock schedule (before + 1) (timeOf clock schedule (before + 1)) with
            | none =>
              ⟨[], some (verdict content (before + 1) (timeOf clock schedule (before + 1))
                (.ok .pending)), stateAfter ask start (before + 1)⟩
            | some next =>
              continueFrom clock schedule content ask none (before + 2) next left
                (stateAfter ask start (before + 1))) :=
  rfl

/-- A final check is the last one: its answer settles the result, or the time is over. -/
theorem goingOn_of_final {number left : Nat} (counted : 0 < number)
    (final : IsFinal clock schedule ask start number)
    : goingOn clock schedule content ask start number (left + 1)
      = endingAt clock schedule content ask start number number := by
  obtain ⟨before, rfl⟩ : ∃ before, number = before + 1 := ⟨number - 1, by omega⟩
  have only : List.range' (before + 1) (before + 1 + 1 - (before + 1)) = [before + 1] := by simp
  rw [goingOn_succ, endingAt, only]
  by_cases pending : answerTo ask start (before + 1) = .ok .pending
  · have expired := final.resolve_left (not_not_intro pending)
    rw [settled_eq_none_iff.mpr pending, nextTime_eq_none_iff.mpr expired, pending]
    rfl
  · rw [settled_of_ne_pending pending]
    rfl

/-- A check that is not final is followed by the next one of the timetable. -/
theorem goingOn_of_not_final {number left : Nat} (counted : 0 < number)
    (goes : ¬ IsFinal clock schedule ask start number)
    : goingOn clock schedule content ask start number (left + 1)
      = after (checkOf clock schedule ask start number)
          (goingOn clock schedule content ask start (number + 1) left) := by
  obtain ⟨before, rfl⟩ : ∃ before, number = before + 1 := ⟨number - 1, by omega⟩
  obtain ⟨pending, early⟩ := not_or.mp goes
  rw [goingOn_succ, settled_eq_none_iff.mpr (not_not.mp pending), nextTime_of_not_over early]
  rfl

/-- With enough checks to be counted, a wait ends with its first final check, by induction on the
number of checks before it.
-/
theorem goingOn_of_firstFinal {number left last : Nat} (counted : 0 < number)
    (enough : last < number + left) (reached : number ≤ last)
    (final : IsFinal clock schedule ask start last)
    (first : ∀ earlier, number ≤ earlier → earlier < last
      → ¬ IsFinal clock schedule ask start earlier)
    : goingOn clock schedule content ask start number left
      = endingAt clock schedule content ask start number last := by
  induction left generalizing number with
  | zero => omega
  | succ left ih =>
      rcases Nat.eq_or_lt_of_le reached with same | later
      · subst number
        exact goingOn_of_final content counted final
      · rw [goingOn_of_not_final content counted (first number (Nat.le_refl _) later),
          ih (by omega) (by omega) later fun earlier above => first earlier (by omega)]
        have split : last + 1 - number = (last + 1 - (number + 1)) + 1 := by omega
        simp only [after, endingAt, split, List.range'_succ, List.map_cons]

/-- Without a final check among those that can be counted, all of these are made and the count
fails, by induction on the checks that are left.
-/
theorem goingOn_of_no_final {number left : Nat} (counted : 0 < number)
    (goes : ∀ later, number ≤ later → later < number + left
      → ¬ IsFinal clock schedule ask start later)
    : goingOn clock schedule content ask start number left
      = ⟨(List.range' number left).map (checkOf clock schedule ask start),
          some (.error .checksUncountable), stateAfter ask start (number + left - 1)⟩ := by
  induction left generalizing number with
  | zero => rfl
  | succ left ih =>
      rw [goingOn_of_not_final content counted (goes number (Nat.le_refl _) (by omega)),
        ih (by omega) fun later above below => goes later (by omega) (by omega)]
      have same : number + 1 + left - 1 = number + (left + 1) - 1 := by omega
      simp only [after, List.range'_succ, List.map_cons, same]

end Course

-----------------------------------------------------------------------------------------
-- Whole waits
-----------------------------------------------------------------------------------------

/-- Without a first final check below a bound there is no final one below it at all, by strong
induction on the number of the check.
-/
theorem not_isFinal_of_no_first {σ : Type} {clock : Clock} {schedule : Schedule}
    {ask : σ → Except Failure Status × σ} {start : σ} {bound : Nat}
    (none : ¬ ∃ last < bound, IsFirstFinal clock schedule ask start last) {number : Nat}
    (counted : 0 < number) (below : number < bound)
    : ¬ IsFinal clock schedule ask start number := by
  induction number using Nat.strong_induction_on with
  | _ number ih =>
      intro final
      refine none ⟨number, below, counted, final, ?_⟩
      intro earlier positive before
      exact ih earlier before positive (by omega)

/-- A wait whose end the clock represents begins with the first check, at once. -/
theorem run_eq_goingOn {σ : Type} {clock : Clock} {schedule : Schedule} (content : String)
    (ask : σ → Except Failure Status × σ) (start : σ)
    (representable : clock.reaches schedule.timeout = true)
    : run clock schedule content ask none start
      = goingOn clock schedule content ask start 1 countableChecks := by
  simp only [run, representable, if_true]
  rfl

/-- A whole wait ends with the first final check, if that can be counted. -/
theorem goingOn_eq_endingAt {σ : Type} {clock : Clock} {schedule : Schedule} (content : String)
    {ask : σ → Except Failure Status × σ} {start : σ} {last : Nat}
    (first : IsFirstFinal clock schedule ask start last) (countable : last ≤ countableChecks)
    : goingOn clock schedule content ask start 1 countableChecks
      = endingAt clock schedule content ask start 1 last := by
  obtain ⟨counted, final, earliest⟩ := first
  exact goingOn_of_firstFinal content Nat.one_pos (by omega) counted final earliest

/-- A whole wait without a final check runs out of numbers. -/
theorem goingOn_eq_uncountable {σ : Type} {clock : Clock} {schedule : Schedule}
    (content : String) {ask : σ → Except Failure Status × σ} {start : σ}
    (none : ¬ ∃ last < countableChecks + 1, IsFirstFinal clock schedule ask start last)
    : goingOn clock schedule content ask start 1 countableChecks
      = ⟨(List.range' 1 countableChecks).map (checkOf clock schedule ask start),
          some (.error .checksUncountable), stateAfter ask start countableChecks⟩ := by
  rw [goingOn_of_no_final content Nat.one_pos
    (fun later above below => not_isFinal_of_no_first none above (by omega)),
    Nat.add_sub_cancel_left]

/-- A final check means the verdict on its answer, and an answer that is still pending also that the
time is over.
-/
theorem IsFinal.timeIsOver {σ : Type} {clock : Clock} {schedule : Schedule}
    {ask : σ → Except Failure Status × σ} {start : σ} {number : Nat}
    (final : IsFinal clock schedule ask start number)
    (pending : answerTo ask start number = .ok .pending)
    : timeIsOver schedule (timeOf clock schedule number) :=
  final.resolve_left (not_not_intro pending)

/-- Answers without a final check among them are all pending, by pointwise comparison. -/
theorem answers_eq_replicate {σ : Type} {clock : Clock} {schedule : Schedule}
    {ask : σ → Except Failure Status × σ} {start : σ} (count : Nat)
    (goes : ∀ number, 0 < number → number ≤ count
      → ¬ IsFinal clock schedule ask start number)
    : (List.range' 1 count).map (answerTo ask start)
      = List.replicate count (.ok .pending) := by
  rw [List.eq_replicate_iff]
  refine ⟨by simp, ?_⟩
  intro answer member
  obtain ⟨number, inRange, rfl⟩ := List.mem_map.mp member
  have bounds := List.mem_range'_1.mp inRange
  exact not_not.mp (not_or.mp (goes number bounds.1 (by omega))).1

/-- The answers of a whole wait, and the result that they lead to. All answers but the last one are
pending.
-/
inductive Ending (clock : Clock) (schedule : Schedule) (content : String)
    : List (Except Failure Status) → Except Failure Nat → Prop
  | completed (pending : Nat)
    : Ending clock schedule content
        (List.replicate pending (.ok .pending) ++ [.ok .completed]) (.ok (pending + 1))
  | unanswered (pending : Nat) (failure : Failure)
    : Ending clock schedule content
        (List.replicate pending (.ok .pending) ++ [.error failure]) (.error failure)
  | failed (pending : Nat) (reason : String)
    : Ending clock schedule content
        (List.replicate pending (.ok .pending) ++ [.ok (.failed reason)])
        (.error (.extractionFailed content reason))
  | late (pending : Nat)
    (expired : timeIsOver schedule (timeOf clock schedule (pending + 1)))
    : Ending clock schedule content
        (List.replicate pending (.ok .pending) ++ [.ok .pending])
        (.error (.stillPending content (timeOf clock schedule (pending + 1) / 1000)
          (pending + 1)))
  | uncountable
    : Ending clock schedule content (List.replicate countableChecks (.ok .pending))
        (.error .checksUncountable)
  | beyondClock (beyond : clock.reaches schedule.timeout = false)
    : Ending clock schedule content [] (.error .endBeyondClock)

/-- A first final check gives its wait one of the endings, by cases on its answer. -/
theorem IsFirstFinal.ending {σ : Type} {clock : Clock} {schedule : Schedule}
    {ask : σ → Except Failure Status × σ} {start : σ} {last : Nat}
    (first : IsFirstFinal clock schedule ask start last) (content : String)
    : Ending clock schedule content ((List.range' 1 last).map (answerTo ask start))
        (verdict content last (timeOf clock schedule last) (answerTo ask start last)) := by
  obtain ⟨counted, final, earliest⟩ := first
  obtain ⟨pending, rfl⟩ : ∃ pending, last = pending + 1 := ⟨last - 1, by omega⟩
  have before := answers_eq_replicate pending
    fun number positive below => earliest number positive (by omega)
  rw [List.range'_concat, List.map_append, before, Nat.one_mul, Nat.add_comm 1 pending,
    List.map_singleton]
  cases answer : answerTo ask start (pending + 1) with
  | error failure => exact .unanswered pending failure
  | ok status =>
      cases status with
      | pending => exact .late pending (final.timeIsOver answer)
      | completed => exact .completed pending
      | failed reason => exact .failed pending reason

/-- Every wait makes the checks of the timetable, up to an ending that belongs to their answers.
Whether the clock represents the end, and whether some check is final, decides which one.
-/
theorem run_ending {σ : Type} (clock : Clock) (schedule : Schedule) (content : String)
    (ask : σ → Except Failure Status × σ) (start : σ)
    : ∃ count result,
        run clock schedule content ask none start
          = ⟨(List.range' 1 count).map (checkOf clock schedule ask start), some result,
              stateAfter ask start count⟩
        ∧ Ending clock schedule content ((List.range' 1 count).map (answerTo ask start))
            result := by
  cases representable : clock.reaches schedule.timeout with
  | false =>
      refine ⟨0, .error .endBeyondClock, ?_, .beyondClock representable⟩
      simp only [run, representable, Bool.false_eq_true, if_false, List.range'_zero,
        List.map_nil, stateAfter]
  | true =>
      rw [run_eq_goingOn content ask start representable]
      by_cases some : ∃ last < countableChecks + 1, IsFirstFinal clock schedule ask start last
      · obtain ⟨last, below, first⟩ := some
        exact ⟨last, _, goingOn_eq_endingAt content first (by omega), first.ending content⟩
      · refine ⟨countableChecks, .error .checksUncountable,
          goingOn_eq_uncountable content some, ?_⟩
        rw [answers_eq_replicate countableChecks
          fun number positive below => not_isFinal_of_no_first some positive (by omega)]
        exact .uncountable

/-- A wait on exact sleeps makes its checks at the times of the timetable, the first one at once
and each other one in the first whole millisecond after the sleep, up to the first final check and
no further. What that check answers is the result. Where no check that can be counted is final,
all of them are made and none of the four results is reached.
-/
theorem run_follows_timetable {σ : Type} (range : Nat) (schedule : Schedule) (content : String)
    (ask : σ → Except Failure Status × σ) (start : σ)
    (representable : (Clock.exact range).reaches schedule.timeout = true)
    : let time := timeOf (.exact range) schedule
      let wait := run (.exact range) schedule content ask none start
      time 1 = 0
      ∧ (∀ number, 0 < number
          → time (number + 1)
            = Clock.ceiling
                (time number * Clock.tick + sleepAfter schedule number (time number)))
      ∧ (∀ last < 2 ^ 32, IsFirstFinal (.exact range) schedule ask start last
          → wait.checks = (List.range' 1 last).map (checkOf (.exact range) schedule ask start)
            ∧ wait.result = some (verdict content last (time last) (answerTo ask start last))
            ∧ wait.state = stateAfter ask start last)
      ∧ ((¬ ∃ last < 2 ^ 32, IsFirstFinal (.exact range) schedule ask start last)
          → wait.checks
              = (List.range' 1 (2 ^ 32 - 1)).map (checkOf (.exact range) schedule ask start)
            ∧ wait.result = some (.error .checksUncountable)) := by
  intro time wait
  have begins : wait = goingOn (.exact range) schedule content ask start 1 countableChecks :=
    run_eq_goingOn content ask start representable
  refine ⟨rfl, ?_, ?_, ?_⟩
  · intro number counted
    obtain ⟨before, rfl⟩ : ∃ before, number = before + 1 := ⟨number - 1, by omega⟩
    rfl
  · intro last below first
    rw [begins, goingOn_eq_endingAt content first (by unfold countableChecks; omega)]
    exact ⟨rfl, rfl, rfl⟩
  · intro noFirst
    rw [begins, goingOn_eq_uncountable content noFirst]
    exact ⟨rfl, rfl⟩

/-- A nanosecond over half a second, doubling, for a second in all. -/
def hastySchedule : Schedule :=
  ⟨{ Interval.zero with nanos := 500000001, nanos_lt := by decide }, .ofSeconds 10,
    some (.ofSeconds 1)⟩

/-- A job that never ends is asked three times in a second: at once, after the first pause rounded
up to a millisecond, and at the very end. Without a limit it is asked as often as can be counted.
-/
theorem run_follows_timetable_of_endless_job
    : (run (.exact (2 ^ 80)) hastySchedule "c" (fun s : Unit => (.ok .pending, s)) none ()).checks
        = [⟨1, 0, .ok .pending⟩, ⟨2, 501, .ok .pending⟩, ⟨3, 1000, .ok .pending⟩]
      ∧ (run (.exact (2 ^ 80)) hastySchedule "c" (fun s : Unit => (.ok .pending, s)) none
          ()).result
        = some (.error (.stillPending "c" 1 3))
      ∧ (run (.exact (2 ^ 80)) { hastySchedule with timeout := none } "c"
          (fun s : Unit => (.ok .pending, s)) none ()).result
        = some (.error .checksUncountable) := by
  have limited := run_follows_timetable (2 ^ 80) hastySchedule "c"
    (fun s : Unit => (.ok .pending, s)) () (by decide)
  have endless := run_follows_timetable (2 ^ 80) { hastySchedule with timeout := none } "c"
    (fun s : Unit => (.ok .pending, s)) () (by decide)
  have third : IsFirstFinal (.exact (2 ^ 80)) hastySchedule
      (fun s : Unit => (.ok .pending, s)) () 3 := by
    refine ⟨by decide, Or.inr ⟨.ofSeconds 1, rfl, by decide⟩, ?_⟩
    rintro earlier positive below (other | ⟨timeout, limit, expired⟩)
    · exact other rfl
    · cases Option.some.inj limit
      obtain rfl | rfl : earlier = 1 ∨ earlier = 2 := by omega
      · exact absurd expired (by decide)
      · exact absurd expired (by decide)
  have never : ¬ ∃ last < 2 ^ 32, IsFirstFinal (.exact (2 ^ 80))
      { hastySchedule with timeout := none } (fun s : Unit => (.ok .pending, s)) () last := by
    rintro ⟨last, _, _, other | ⟨timeout, limit, _⟩, _⟩
    · exact other rfl
    · cases limit
  obtain ⟨checks, result, _⟩ := limited.2.2.1 3 (by decide) third
  exact ⟨checks, result, (endless.2.2.2 never).2⟩

end DocPipeline.Wait
