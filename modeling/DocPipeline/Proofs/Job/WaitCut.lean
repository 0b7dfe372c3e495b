import DocPipeline.Proofs.Job.WaitLength
import Mathlib.Data.List.TakeWhile

/-! Waits that are given up. A wait that is given up is the whole wait as far as the sleep in which
that happens: it makes the same checks at the same times, reports the same states, and asks nothing
from then on.
-/

namespace DocPipeline

-----------------------------------------------------------------------------------------
-- Clocks that never turn back
-----------------------------------------------------------------------------------------

namespace Clock

/-- No sleep ends before it began. -/
def NeverTurnsBack (clock : Clock) : Prop :=
  ∀ now nanos, now ≤ clock.wake now nanos

theorem le_wakeExactly (now nanos : Nat) : now ≤ wakeExactly now nanos := by
  simp only [wakeExactly, ceiling, tick]
  omega

theorem neverTurnsBack_exact (range : Nat) : (exact range).NeverTurnsBack :=
  le_wakeExactly

theorem neverTurnsBack_bounded (range : Nat) : (bounded range).NeverTurnsBack := by
  intro now nanos
  simp only [bounded]
  split
  · exact le_wakeExactly now nanos
  · exact le_wakeExactly now longSleep

end Clock

/-- The check is made by the millisecond. -/
def Check.isBy (limit : Nat) (check : Check) : Bool :=
  check.time ≤ limit

namespace Wait

variable {σ : Type} {clock : Clock} {schedule : Schedule} {content : String}
  {ask : σ → Except Failure Status × σ} {number now left : Nat} {state : σ}

-----------------------------------------------------------------------------------------
-- The part of a wait before it is given up
-----------------------------------------------------------------------------------------

/-- No sleep ends before its check. -/
theorem le_of_nextTime (forward : clock.NeverTurnsBack) {next : Nat}
    (follows : nextTime clock schedule number now = some next) : now ≤ next := by
  have early : ¬ timeIsOver schedule now := by
    intro expired
    rw [nextTime_eq_none_iff.mpr expired] at follows
    cases follows
  rw [nextTime_of_not_over early] at follows
  cases follows
  exact forward now _

/-- The first check of a wait is the earliest one; by induction on the checks that are left. -/
theorem le_time_of_mem (forward : clock.NeverTurnsBack) {check : Check}
    (member : check
      ∈ (continueFrom clock schedule content ask none number now left state).checks)
    : now ≤ check.time := by
  induction left generalizing number now state with
  | zero => cases member
  | succ left ih =>
      unfold continueFrom at member
      rcases List.mem_cons.mp member with rfl | later
      · exact Nat.le_refl now
      · cases answered : settled content number (ask state).1 with
        | some result =>
            rw [answered] at later
            cases later
        | none =>
            rw [answered] at later
            cases follows : nextTime clock schedule number now with
            | none =>
                rw [follows] at later
                cases later
            | some next =>
                rw [follows] at later
                exact Nat.le_trans (le_of_nextTime forward follows) (ih later)

/-- A wait and what a limit leaves of it: the checks up to the first one after the limit, which are
all that are made by the limit, and the whole wait unless it is given up.
-/
structure IsCut (limit : Nat) (full cut : Wait σ) : Prop where
  checks : cut.checks = full.checks.takeWhile (Check.isBy limit)
  complete : ∀ check ∈ full.checks, check.time ≤ limit → check ∈ cut.checks
  ending : cut.result = none ∨ cut = full

theorem IsCut.ended (limit : Nat) (result : Option (Except Failure Nat)) (state : σ)
    : IsCut limit ⟨[], result, state⟩ ⟨[], result, state⟩ where
  checks := rfl
  complete := fun _ member => by cases member
  ending := .inr rfl

/-- One more check by the limit is made in both waits. -/
theorem IsCut.after {limit : Nat} {full cut : Wait σ} (cuts : IsCut limit full cut) {check : Check}
    (early : check.time ≤ limit) : IsCut limit (Wait.after check full) (Wait.after check cut) where
  checks := by
    have kept : Check.isBy limit check = true := decide_eq_true early
    rw [Wait.after, Wait.after, List.takeWhile_cons_of_pos kept, cuts.checks]
  complete := by
    intro other member by_limit
    rcases List.mem_cons.mp member with rfl | later
    · exact List.mem_cons_self
    · exact List.mem_cons_of_mem check (cuts.complete other later by_limit)
  ending := cuts.ending.imp_right (congrArg (Wait.after check))

/-- A wait is given up before a check that is later than the limit, as are all that follow it. -/
theorem isCut_of_late (forward : clock.NeverTurnsBack) {limit : Nat} (late : limit < now)
    : IsCut limit (continueFrom clock schedule content ask none number now left state)
        ⟨[], none, state⟩ where
  checks := by
    cases left with
    | zero => rfl
    | succ left =>
        unfold continueFrom
        exact (List.takeWhile_cons_of_neg (by simpa [Check.isBy] using late)).symm
  complete := by
    intro check member by_limit
    have least := le_time_of_mem forward member
    omega
  ending := .inl rfl

/-- A limit cuts a wait; by induction on the checks that are left. -/
theorem continueFrom_isCut (forward : clock.NeverTurnsBack) {limit : Nat} (early : now ≤ limit)
    : IsCut limit (continueFrom clock schedule content ask none number now left state)
        (continueFrom clock schedule content ask (some limit) number now left state) := by
  induction left generalizing number now state with
  | zero => exact .ended limit _ state
  | succ left ih =>
      unfold continueFrom
      refine IsCut.after ?_ early
      cases settled content number (ask state).1 with
      | some result => exact .ended limit _ _
      | none =>
          cases nextTime clock schedule number now with
          | none => exact .ended limit _ _
          | some next =>
              by_cases late : limit < next
              · simpa [late] using isCut_of_late forward late
              · simpa [late] using ih (Nat.le_of_not_lt late)

theorem run_isCut (forward : clock.NeverTurnsBack) (limit : Nat)
    : IsCut limit (run clock schedule content ask none state)
        (run clock schedule content ask (some limit) state) := by
  unfold run
  split
  · exact continueFrom_isCut forward (Nat.zero_le limit)
  · exact .ended limit _ state

-----------------------------------------------------------------------------------------
-- What is asked of the service
-----------------------------------------------------------------------------------------

/-- The first question comes before all others; by induction on their number. -/
theorem stateAfter_succ (start : σ) (count : Nat)
    : stateAfter ask start (count + 1) = stateAfter ask (ask start).2 count := by
  induction count with
  | zero => rfl
  | succ count ih => rw [stateAfter, ih, stateAfter]

/-- A wait asks as often as it checks, also if it is given up; by induction on the checks that are
left.
-/
theorem state_continueFrom (limit : Option Nat)
    : (continueFrom clock schedule content ask limit number now left state).state
      = stateAfter ask state
          (continueFrom clock schedule content ask limit number now left state).checks.length := by
  induction left generalizing number now state with
  | zero => rfl
  | succ left ih =>
      unfold continueFrom
      simp only [after, List.length_cons, stateAfter_succ]
      cases settled content number (ask state).1 with
      | some result => rfl
      | none =>
          cases nextTime clock schedule number now with
          | none => rfl
          | some next =>
              by_cases late : limit.any (· < next)
              · simp [late, stateAfter]
              · simpa [late] using ih

theorem state_run (limit : Option Nat)
    : (run clock schedule content ask limit state).state
      = stateAfter ask state (run clock schedule content ask limit state).checks.length := by
  unfold run
  split
  · exact state_continueFrom limit
  · rfl

-----------------------------------------------------------------------------------------
-- Whole waits
-----------------------------------------------------------------------------------------

/-- The times of the questions only grow; by induction on the number of the later one. -/
theorem timeOf_mono (forward : clock.NeverTurnsBack) {earlier later : Nat}
    (before : earlier ≤ later)
    : timeOf clock schedule earlier ≤ timeOf clock schedule later := by
  induction later with
  | zero => rw [Nat.le_zero.mp before]
  | succ later ih =>
      rcases Nat.le_or_eq_of_le_succ before with below | rfl
      · cases later with
        | zero => exact ih below
        | succ later => exact (ih below).trans (forward _ _)
      · exact Nat.le_refl _

/-- A wait is not given up if its first final check is by the limit, since all others are earlier;
by induction on the checks that are left.
-/
theorem continueFrom_of_firstFinal (forward : clock.NeverTurnsBack) (before : Nat)
    {last limit : Nat} (enough : last ≤ before + left) (reached : before < last)
    (first : IsFirstFinal clock schedule ask state last)
    (early : timeOf clock schedule last ≤ limit)
    : continueFrom clock schedule content ask (some limit) (before + 1)
        (timeOf clock schedule (before + 1)) left (stateAfter ask state before)
      = continueFrom clock schedule content ask none (before + 1)
        (timeOf clock schedule (before + 1)) left (stateAfter ask state before) := by
  induction left generalizing before with
  | zero => rfl
  | succ left ih =>
      simp only [continueFrom]
      congr 1
      cases answered : settled content (before + 1) (ask (stateAfter ask state before)).1 with
      | some result => rfl
      | none =>
          cases follows : nextTime clock schedule (before + 1)
              (timeOf clock schedule (before + 1)) with
          | none => rfl
          | some next =>
              have goes : ¬ IsFinal clock schedule ask state (before + 1) := by
                rintro (other | expired)
                · exact other (settled_eq_none_iff.mp answered)
                · rw [nextTime_eq_none_iff.mpr expired] at follows
                  cases follows
              have later : before + 1 < last := by
                refine Nat.lt_of_le_of_ne reached ?_
                rintro rfl
                exact goes first.2.1
              have same : next = timeOf clock schedule (before + 2) := by
                rw [nextTime_of_not_over fun expired => goes (.inr expired)] at follows
                exact (Option.some.inj follows).symm
              subst same
              have by_limit : ¬ limit < timeOf clock schedule (before + 2) :=
                Nat.not_lt.mpr ((timeOf_mono forward later).trans early)
              simp only [Option.any_some, Option.any_none, by_limit, decide_false,
                Bool.false_eq_true, if_false]
              exact ih (before + 1) (by omega) later

theorem run_eq_of_firstFinal (forward : clock.NeverTurnsBack) {last limit : Nat}
    (countable : last < 2 ^ 32) (first : IsFirstFinal clock schedule ask state last)
    (early : timeOf clock schedule last ≤ limit)
    : run clock schedule content ask (some limit) state
      = run clock schedule content ask none state := by
  unfold run
  split
  · exact continueFrom_of_firstFinal forward 0 (by unfold countableChecks; omega) first.1 first
      early
  · rfl

/-- A wait whose checks are all by the limit is not given up, unless it runs out of numbers; by
cases on its ending.
-/
theorem run_eq_of_checks (forward : clock.NeverTurnsBack) {limit : Nat}
    (countable : (run clock schedule content ask none state).result
      ≠ some (.error .checksUncountable))
    (early : ∀ check ∈ (run clock schedule content ask none state).checks, check.time ≤ limit)
    : run clock schedule content ask (some limit) state
      = run clock schedule content ask none state := by
  cases representable : clock.reaches schedule.timeout with
  | false => simp [run, representable]
  | true =>
      rcases run_cases content representable with ⟨last, below, first, ends⟩ | ⟨_, ends⟩
      · refine run_eq_of_firstFinal forward below first
          (early (checkOf clock schedule ask state last) ?_)
        rw [ends]
        have counted := first.1
        exact List.mem_map_of_mem (List.mem_range'_1.mpr ⟨by omega, by omega⟩)
      · exact absurd (congrArg Wait.result ends) countable

/-- A wait that is given up makes the same checks at the same times as the whole wait, reports the
same states, and asks nothing more: the checks before the limit are all there, and none of them is
later. If the whole wait ends before the limit, with a last check that can be counted, it is not
given up and has the same result.
-/
theorem run_given_up_is_cut {σ : Type} {clock : Clock} (forward : clock.NeverTurnsBack)
    (schedule : Schedule) (content : String) (ask : σ → Except Failure Status × σ) (start : σ)
    (limit : Nat)
    : let full := run clock schedule content ask none start
      let cut := run clock schedule content ask (some limit) start
      cut.checks <+: full.checks
      ∧ cut.reports <+: full.reports
      ∧ (∀ check ∈ full.checks, check.time < limit → check ∈ cut.checks)
      ∧ (∀ check ∈ cut.checks, check.time ≤ limit)
      ∧ cut.state = stateAfter ask start cut.checks.length
      ∧ (∃ result, full.result = some result)
      ∧ (cut.result = none ∨ cut = full)
      ∧ (full.result ≠ some (.error .checksUncountable)
          → (∀ check ∈ full.checks, check.time < limit) → cut = full)
      ∧ ∀ last < 2 ^ 32, IsFirstFinal clock schedule ask start last
          → timeOf clock schedule last < limit → cut = full := by
  intro full cut
  have cuts : IsCut limit full cut := run_isCut forward limit
  have front : cut.checks <+: full.checks := cuts.checks ▸ List.takeWhile_prefix _
  refine ⟨front, front.filterMap _, ?_, ?_, state_run (some limit), ?_, cuts.ending, ?_, ?_⟩
  · intro check member before
    exact cuts.complete check member (Nat.le_of_lt before)
  · intro check member
    rw [cuts.checks] at member
    have kept : Check.isBy limit check = true := List.mem_takeWhile_imp member
    exact of_decide_eq_true kept
  · obtain ⟨_, result, whole, _⟩ := run_ending clock schedule content ask start
    exact ⟨result, congrArg Wait.result whole⟩
  · intro countable early
    exact run_eq_of_checks forward countable fun check member =>
      Nat.le_of_lt (early check member)
  · intro last countable first before
    exact run_eq_of_firstFinal forward countable first (Nat.le_of_lt before)

/-- A job that never ends is given up in the sleep before the last of its three checks. A
millisecond after that check it is too late to give it up.
-/
theorem run_given_up_is_cut_of_endless_job
    : let clock := Clock.exact (2 ^ 80)
      let ask := fun s : Unit => (.ok .pending, s)
      let cutAt := fun limit => run clock hastySchedule "c" ask (some limit) ()
      clock.NeverTurnsBack
      ∧ (cutAt 600).checks.map Check.time = [0, 501]
      ∧ (cutAt 600).checks <+: (run clock hastySchedule "c" ask none ()).checks
      ∧ cutAt 1001 = run clock hastySchedule "c" ask none () := by
  intro clock ask cutAt
  have forward : clock.NeverTurnsBack := Clock.neverTurnsBack_exact _
  have third : IsFirstFinal clock hastySchedule ask () 3 := by
    refine ⟨by decide, .inr ⟨.ofSeconds 1, rfl, by decide⟩, ?_⟩
    rintro earlier positive below (other | ⟨timeout, limit, expired⟩)
    · exact other rfl
    · cases Option.some.inj limit
      obtain rfl | rfl : earlier = 1 ∨ earlier = 2 := by omega
      · exact absurd expired (by decide)
      · exact absurd expired (by decide)
  obtain ⟨front, _⟩ := run_given_up_is_cut forward hastySchedule "c" ask () 600
  obtain ⟨_, _, _, _, _, _, _, _, ends⟩ :=
    run_given_up_is_cut forward hastySchedule "c" ask () 1001
  exact ⟨forward, by decide +kernel, front, ends 3 (by decide) third (by decide)⟩

end Wait
end DocPipeline
