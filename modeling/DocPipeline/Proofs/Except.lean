/-! Results one after the other. -/

namespace Except

variable {ε δ α β : Type}

theorem ok_bind (a : α) (next : α → Except ε β) : (ok a >>= next) = next a :=
  rfl

/-- What follows a result comes about only after the result did; by cases on the first result. -/
theorem exists_of_bind_eq_ok {first : Except ε α} {next : α → Except ε β} {b : β}
    (done : first >>= next = .ok b) : ∃ a, first = .ok a ∧ next a = .ok b := by
  cases first with
  | error _ => cases done
  | ok a => exact ⟨a, rfl, done⟩

theorem bind_eq_ok_iff {first : Except ε α} {next : α → Except ε β} {b : β}
    : first >>= next = .ok b ↔ ∃ a, first = .ok a ∧ next a = .ok b := by
  constructor
  · exact exists_of_bind_eq_ok
  · rintro ⟨a, rfl, done⟩
    exact done

@[simp]
theorem ok_mapError (change : ε → δ) (a : α) : (ok a).mapError change = ok a :=
  rfl

@[simp]
theorem error_mapError (change : ε → δ) (e : ε)
    : (error e : Except ε α).mapError change = error (change e) :=
  rfl

/-- Another error does not change what a result is a success of. -/
theorem mapError_eq_ok_iff {result : Except ε α} {change : ε → δ} {a : α}
    : result.mapError change = .ok a ↔ result = .ok a := by
  cases result <;> simp

end Except
