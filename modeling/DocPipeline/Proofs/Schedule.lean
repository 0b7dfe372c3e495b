import DocPipeline.Proofs.Settings
import DocPipeline.Schedule
import Mathlib.Order.MinMax

/-! The pauses of a schedule in exact arithmetic. A pause is a multiple of the initial interval, by
a power of two up to the greatest factor, and no longer than the longest pause. So pauses double
from check to check until the longest one is reached, unless the greatest factor is reached before.
-/

namespace DocPipeline.Schedule

-----------------------------------------------------------------------------------------
-- Factors
-----------------------------------------------------------------------------------------

/-- The exponent is cut off only where the power is beyond the greatest factor anyway. -/
theorem factor_eq (check : Nat)
    : factor check = min (2 ^ (max check 1 - 1)) longestFactor := by
  have exponent : max check 1 - 1 = check - 1 := by omega
  rw [factor, exponent]
  rcases Nat.le_total (check - 1) 32 with small | large
  · rw [Nat.min_eq_left small]
  · have power : 2 ^ 32 ≤ 2 ^ (check - 1) := Nat.pow_le_pow_right Nat.two_pos large
    rw [Nat.min_eq_right large, longestFactor]
    omega

theorem factor_pos (check : Nat) : 0 < factor check := by
  have power : 0 < 2 ^ (max check 1 - 1) := Nat.two_pow_pos _
  rw [factor_eq, longestFactor]
  omega

theorem factor_mono : Monotone factor := by
  intro check later order
  have power : 2 ^ (max check 1 - 1) ≤ 2 ^ (max later 1 - 1) :=
    Nat.pow_le_pow_right Nat.two_pos (by omega)
  rw [factor_eq, factor_eq]
  omega

/-- From check to check the factor doubles, up to the greatest one. -/
theorem factor_succ {check : Nat} (counted : 0 < check)
    : factor (check + 1) = min (2 * factor check) longestFactor := by
  obtain ⟨before, rfl⟩ : ∃ before, check = before + 1 := ⟨check - 1, by omega⟩
  have power : 2 ^ (before + 1) = 2 * 2 ^ before := Nat.pow_succ'
  have exponents : max (before + 1) 1 - 1 = before ∧ max (before + 1 + 1) 1 - 1 = before + 1 := by
    omega
  rw [factor_eq, factor_eq, exponents.1, exponents.2, power]
  omega

/-- The greatest factor is odd and one less than a power of two, so that power's half is the last
factor that is twice the one before.
-/
theorem two_mul_factor_le_iff {check : Nat}
    : 2 * factor check ≤ longestFactor ↔ check < 32 := by
  have last : factor 32 = 2 ^ 31 := by decide
  have before : factor 31 = 2 ^ 30 := by decide
  constructor
  · intro fits
    by_contra beyond
    have power := factor_mono (Nat.le_of_not_lt beyond)
    rw [last] at power
    simp only [longestFactor] at fits
    omega
  · intro early
    have power := factor_mono (Nat.le_of_lt_succ early)
    rw [before] at power
    simp only [longestFactor]
    omega

theorem factor_eq_longestFactor {check : Nat} (late : 32 < check)
    : factor check = longestFactor := by
  have reached : factor 33 = longestFactor := by decide
  have power := factor_mono late
  rw [Nat.succ_eq_add_one, reached] at power
  have bound : factor check ≤ longestFactor := by
    rw [factor_eq]
    exact Nat.min_le_right _ _
  exact Nat.le_antisymm bound power

-----------------------------------------------------------------------------------------
-- Pauses
-----------------------------------------------------------------------------------------

variable (schedule : Schedule)

/-- The length of a pause; the longest interval does not matter, since the longest pause is one. -/
theorem toNanos_pauseAfter (check : Nat)
    : (schedule.pauseAfter check).toNanos
      = min (schedule.initial.toNanos * factor check) schedule.longestPause.toNanos := by
  rw [pauseAfter, Interval.toNanos_shorter, Interval.toNanos_scale, Nat.min_assoc,
    Nat.min_eq_right (Interval.toNanos_le_longest schedule.longestPause)]

theorem toNanos_pauseAfter_mono : Monotone fun check => (schedule.pauseAfter check).toNanos := by
  intro check later order
  have factors := Nat.mul_le_mul_left schedule.initial.toNanos (factor_mono order)
  simp only [toNanos_pauseAfter]
  omega

theorem toNanos_pauseAfter_le (check : Nat)
    : (schedule.pauseAfter check).toNanos ≤ schedule.longestPause.toNanos := by
  rw [toNanos_pauseAfter]
  exact Nat.min_le_right _ _

/-- No pause is shorter than the initial interval, unless the longest pause is. -/
theorem min_le_toNanos_pauseAfter (check : Nat)
    : min schedule.initial.toNanos schedule.longestPause.toNanos
      ≤ (schedule.pauseAfter check).toNanos := by
  have once := Nat.le_mul_of_pos_right schedule.initial.toNanos (factor_pos check)
  rw [toNanos_pauseAfter]
  omega

/-- A pause is twice the one before, as far as the longest pause and the greatest factor allow. -/
theorem toNanos_pauseAfter_succ {check : Nat} (counted : 0 < check)
    : (schedule.pauseAfter (check + 1)).toNanos
      = min (min (2 * (schedule.pauseAfter check).toNanos) schedule.longestPause.toNanos)
          (schedule.initial.toNanos * longestFactor) := by
  have twice : schedule.initial.toNanos * (2 * factor check)
      = 2 * (schedule.initial.toNanos * factor check) := Nat.mul_left_comm _ _ _
  rw [toNanos_pauseAfter, toNanos_pauseAfter, factor_succ counted, ← Nat.mul_min_mul_left, twice]
  omega

/-- The pause after a check is the initial interval times two to the power of the checks before it,
clipped at the greatest factor and at the longest pause, exactly and for all intervals. So pauses
never become shorter, stay between the initial interval and the longest pause, and take time unless
one of these takes none.
-/
theorem pauseAfter_is_clipped_power
    : (∀ check, (pauseAfter schedule check).toNanos
        = min (schedule.initial.toNanos * min (2 ^ (max check 1 - 1)) (2 ^ 32 - 1))
            schedule.longestPause.toNanos)
      ∧ pauseAfter schedule 0 = pauseAfter schedule 1
      ∧ Monotone (fun check => (pauseAfter schedule check).toNanos)
      ∧ (∀ check, (pauseAfter schedule check).toNanos ≤ schedule.longestPause.toNanos)
      ∧ (∀ check, min schedule.initial.toNanos schedule.longestPause.toNanos
          ≤ (pauseAfter schedule check).toNanos)
      ∧ ∀ check, (pauseAfter schedule check).toNanos = 0
          ↔ schedule.initial.toNanos = 0 ∨ schedule.longestPause.toNanos = 0 := by
  refine ⟨?_, rfl, schedule.toNanos_pauseAfter_mono, schedule.toNanos_pauseAfter_le,
    schedule.min_le_toNanos_pauseAfter, ?_⟩
  · intro check
    have exact := schedule.toNanos_pauseAfter check
    rwa [factor_eq, longestFactor] at exact
  · intro check
    have least := schedule.min_le_toNanos_pauseAfter check
    have most := schedule.toNanos_pauseAfter_le check
    constructor
    · intro none
      omega
    · rintro (none | none)
      · rw [toNanos_pauseAfter, none, Nat.zero_mul, Nat.zero_min]
      · omega

-----------------------------------------------------------------------------------------
-- Doubling
-----------------------------------------------------------------------------------------

/-- With settings that are accepted, the first pause is the initial interval, and a pause doubles up
to the longest one exactly if it is one of the first 31, or the longest pause is within the greatest
factor. Where it is beyond that, the pauses stop growing before they reach it.
-/
theorem pauseAfter_doubles_iff {steps : List Setting} {settings : Settings}
    (accepted : Settings.build steps = .ok settings)
    : let schedule := settings.schedule
      let pause := fun check => (schedule.pauseAfter check).toNanos
      let longest := schedule.longestPause.toNanos
      let greatest := schedule.initial.toNanos * (2 ^ 32 - 1)
      schedule.pauseAfter 1 = schedule.initial
      ∧ (∀ check, 0 < check
          → (pause (check + 1) = min (2 * pause check) longest
              ↔ check < 32 ∨ longest ≤ greatest))
      ∧ (greatest < longest → ∀ check, 32 < check → pause check = greatest) := by
  intro schedule pause longest greatest
  obtain ⟨_, sensible⟩ := Settings.build_eq_ok_iff.mp accepted
  have ordered : schedule.initial.toNanos ≤ longest := sensible.ordered
  have greatest_eq : schedule.initial.toNanos * longestFactor = greatest := rfl
  refine ⟨?_, ?_, ?_⟩
  · have first : factor 1 = 1 := rfl
    rw [← Interval.toNanos_inj, toNanos_pauseAfter, first, Nat.mul_one, Nat.min_eq_left ordered]
  · intro check counted
    have next : pause (check + 1) = min (min (2 * pause check) longest) greatest :=
      schedule.toNanos_pauseAfter_succ counted
    have now : pause check = min (schedule.initial.toNanos * factor check) longest :=
      schedule.toNanos_pauseAfter check
    have fits : 2 * (schedule.initial.toNanos * factor check) ≤ greatest ↔ check < 32 := by
      rw [← two_mul_factor_le_iff, ← greatest_eq, Nat.mul_left_comm]
      exact Nat.mul_le_mul_left_iff sensible.pauses
    rw [next, min_eq_left_iff, ← fits, now]
    omega
  · intro short check late
    have exact : pause check = min (schedule.initial.toNanos * factor check) longest :=
      schedule.toNanos_pauseAfter check
    rw [exact, factor_eq_longestFactor late, greatest_eq]
    omega

/-- A nanosecond, doubling, for ten seconds at most. -/
def creeping : Schedule :=
  ⟨{ Interval.zero with nanos := 1, nanos_lt := by decide }, .ofSeconds 10, none⟩

/-- Ten seconds are more than so many nanoseconds as the greatest factor, so the first 32 of these
pauses double and the later ones do not.
-/
theorem pauseAfter_doubles_iff_of_creeping
    : let settings := [Setting.schedule creeping].foldl Settings.set .standard
      let pause := fun check => (creeping.pauseAfter check).toNanos
      Settings.build [.schedule creeping] = .ok settings
      ∧ pause 32 = min (2 * pause 31) creeping.longestPause.toNanos
      ∧ pause 100 = creeping.initial.toNanos * (2 ^ 32 - 1) := by
  intro settings pause
  have accepted : Settings.build [.schedule creeping] = .ok settings := by decide
  obtain ⟨_, doubles, stays⟩ := pauseAfter_doubles_iff accepted
  exact ⟨accepted, (doubles 31 (by decide)).mpr (.inl (by decide)),
    stays (by decide +kernel) 100 (by decide)⟩

/-- Settings are accepted with which pauses stop doubling before they reach the longest one. -/
theorem pauseAfter_stops_short
    : let settings := [Setting.schedule creeping].foldl Settings.set .standard
      let pause := fun check => (settings.schedule.pauseAfter check).toNanos
      Settings.build [.schedule creeping] = .ok settings
      ∧ ¬ ∀ check, 1 ≤ check → check < 2 ^ 32 - 1
          → pause (check + 1) = min (2 * pause check) settings.schedule.longestPause.toNanos := by
  intro settings pause
  refine ⟨by decide, fun doubles => ?_⟩
  exact absurd (doubles 32 (by decide) (by decide)) (by decide)

end DocPipeline.Schedule
