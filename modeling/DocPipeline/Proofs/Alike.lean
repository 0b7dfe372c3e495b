import DocPipeline.Failure
import Mathlib.Data.List.Forall2

/-! Programs that run side by side. Each of them changes a state and may fail. They are alike for a
relation of states if they return the same whenever they begin in related states, and leave related
states behind; then so are programs that are put together from them in the same way.
-/

namespace DocPipeline

/-- Two lists that continue a third one, with entries that belong together pair by pair. -/
def Continued {α : Type} (Pair : α → α → Prop) (start first second : List α) : Prop :=
  ∃ left right,
    first = start ++ left ∧ second = start ++ right ∧ List.Forall₂ Pair left right

namespace Continued

variable {α : Type} {Pair : α → α → Prop} {start first second : List α}

theorem refl (Pair : α → α → Prop) (start : List α) : Continued Pair start start start :=
  ⟨[], [], (List.append_nil start).symm, (List.append_nil start).symm, .nil⟩

theorem append {more others : List α} (continued : Continued Pair start first second)
    (pairs : List.Forall₂ Pair more others)
    : Continued Pair start (first ++ more) (second ++ others) := by
  obtain ⟨left, right, rfl, rfl, earlier⟩ := continued
  exact ⟨left ++ more, right ++ others, List.append_assoc .., List.append_assoc ..,
    List.rel_append earlier pairs⟩

end Continued

/-- The programs return the same and leave related states behind, if they begin in such. -/
def Alike {S α : Type} (Related : S → S → Prop) (first second : ExceptT Failure (StateM S) α)
    : Prop :=
  ∀ s t, Related s t → ∃ result s' t',
    first.run.run s = (result, s') ∧ second.run.run t = (result, t') ∧ Related s' t'

namespace Alike

variable {S α β : Type} {Related : S → S → Prop}

theorem purely (result : Except Failure α)
    : Alike Related (ExceptT.mk (Pure.pure result)) (ExceptT.mk (Pure.pure result)) :=
  fun s t related => ⟨result, s, t, rfl, rfl, related⟩

/-- Programs one after the other are alike if the first ones are and the second ones are for
every value of the first ones; by cases on their result.
-/
theorem bind {first second : ExceptT Failure (StateM S) α}
    {next other : α → ExceptT Failure (StateM S) β} (firsts : Alike Related first second)
    (rest : ∀ value, Alike Related (next value) (other value))
    : Alike Related (first >>= next) (second >>= other) := by
  intro s t related
  obtain ⟨result, s', t', left, right, related⟩ := firsts s t related
  have goes (program : ExceptT Failure (StateM S) α)
      (following : α → ExceptT Failure (StateM S) β) (state : S)
      : (program >>= following).run.run state
        = (ExceptT.bindCont following (program.run.run state).1).run
            (program.run.run state).2 := rfl
  rw [goes, goes, left, right]
  cases result with
  | error failure => exact ⟨.error failure, s', t', rfl, rfl, related⟩
  | ok value => exact rest value s' t' related

/-- Programs behind the same decision are alike if they are for what is decided. -/
theorem decided {result : Except Failure α} {next other : α → ExceptT Failure (StateM S) β}
    (rest : ∀ value, result = .ok value → Alike Related (next value) (other value))
    : Alike Related (ExceptT.mk (Pure.pure result) >>= next)
        (ExceptT.mk (Pure.pure result) >>= other) := by
  cases result with
  | error failure => exact purely (.error failure)
  | ok value => exact rest value rfl

theorem pure (value : α) : Alike Related (Pure.pure value) (Pure.pure value) :=
  purely (.ok value)

/-- A failure that is handed on as a value is still alike. -/
theorem lift {first second : ExceptT Failure (StateM S) α} (alike : Alike Related first second)
    : Alike Related (ExceptT.lift first.run) (ExceptT.lift second.run) := by
  intro s t related
  obtain ⟨result, s', t', left, right, related⟩ := alike s t related
  have lifts (program : ExceptT Failure (StateM S) α) (state : S)
      : (ExceptT.lift program.run : ExceptT Failure (StateM S) _).run.run state
        = (Except.ok (program.run.run state).1, (program.run.run state).2) := rfl
  rw [lifts, lifts, left, right]
  exact ⟨.ok result, s', t', rfl, rfl, related⟩

/-- A program for every value of a list, by induction on the list. -/
theorem mapM {program : α → ExceptT Failure (StateM S) β}
    (each : ∀ value, Alike Related (program value) (program value)) (values : List α)
    : Alike Related (values.mapM program) (values.mapM program) := by
  induction values with
  | nil => exact pure []
  | cons value rest ih =>
      rw [List.mapM_cons]
      exact (each value).bind fun _ => ih.bind fun _ => pure _

end Alike
end DocPipeline
