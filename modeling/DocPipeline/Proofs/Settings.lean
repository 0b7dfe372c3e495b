import DocPipeline.Proofs.Except
import DocPipeline.Proofs.Interval
import DocPipeline.Settings

/-! Settings that are accepted. The rules that settings are checked for are rules about the exact
lengths of their intervals.
-/

namespace DocPipeline.Settings

/-- Settings that keep all rules: the server is on the web, the space has a name, and there is a
pause that is no longer than the longest one.
-/
structure Sensible (s : Settings) : Prop where
  server : Url.isWebAddress s.server = true
  space : Text.isEmptyTrimmed s.space = false
  pauses : 0 < s.schedule.initial.toNanos
  ordered : s.schedule.initial.toNanos ≤ s.schedule.longestPause.toNanos

theorem check_eq_ok_iff (s : Settings) : s.check = .ok () ↔ s.Sensible := by
  unfold check
  constructor
  · intro kept
    split at kept
    · cases kept
    · next server =>
        split at kept
        · cases kept
        · next space =>
            split at kept
            · cases kept
            · next pauses =>
                split at kept
                · cases kept
                · next ordered =>
                    rw [Interval.before_iff, Nat.not_lt] at ordered
                    rw [Bool.not_eq_true, Interval.isZero_eq_false_iff] at pauses
                    exact ⟨by simpa using server, by simpa using space, pauses, ordered⟩
  · rintro ⟨server, space, pauses, ordered⟩
    have notBefore : s.schedule.longestPause.before s.schedule.initial = false := by
      rw [← Bool.not_eq_true, Interval.before_iff]
      omega
    simp [server, space, Interval.isZero_eq_false_iff.mpr pauses, notBefore]

theorem build_eq_ok_iff {steps : List Setting} {s : Settings}
    : build steps = .ok s ↔ s = steps.foldl set standard ∧ s.Sensible := by
  rw [← check_eq_ok_iff]
  unfold build
  constructor
  · intro built
    cases kept : (steps.foldl set standard).check with
    | error violation => simp [kept, Except.map] at built
    | ok _ =>
        simp only [kept, Except.map, Except.ok.injEq] at built
        exact ⟨built.symm, built ▸ kept⟩
  · rintro ⟨rfl, kept⟩
    simp [kept, Except.map]

end DocPipeline.Settings
