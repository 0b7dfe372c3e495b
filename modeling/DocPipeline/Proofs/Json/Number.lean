import DocPipeline.Json.Decode

/-! Whole numbers of JSON read back. A numeral is a spelling that the reader takes as a whole, if
nothing behind it goes on with the number; the digits of every whole number are one.
-/

namespace DocPipeline.Json

/-- The symbol would go on with a number in front of it. -/
def continuesNumber (s : Symbol) : Bool :=
  Reader.isDigit s || s == some '.' || s == some 'e' || s == some 'E'

/-- Nothing at the front goes on with a number. -/
def EndsNumber (rest : List Symbol) : Prop :=
  rest.head?.any continuesNumber = false

/-- A spelling that begins like a number and is read as one. -/
structure IsNumeral (spelling : List Char) : Prop where
  begins : ∃ c tail, spelling = c :: tail ∧ (c.isDigit = true ∨ c = '-')
  reads : ∀ rest, EndsNumber rest →
    Reader.number (spelling.map some ++ rest) = some (.number spelling, rest)

namespace EndsNumber

variable {rest : List Symbol}

theorem nil : EndsNumber [] :=
  rfl

theorem cons {s : Symbol} (ends : continuesNumber s = false) : EndsNumber (s :: rest) :=
  ends

theorem not_isDigit (ends : EndsNumber rest) : rest.head?.any Reader.isDigit = false := by
  unfold EndsNumber at ends
  cases rest with
  | nil => rfl
  | cons s rest =>
      change continuesNumber s = false at ends
      simp only [continuesNumber, Bool.or_eq_false_iff] at ends
      exact ends.1.1.1

theorem fractionPart_eq (ends : EndsNumber rest) : Reader.fractionPart rest = some ([], rest) := by
  unfold Reader.fractionPart
  split
  · cases ends
  · rfl

theorem exponentPart_eq (ends : EndsNumber rest) : Reader.exponentPart rest = some ([], rest) := by
  unfold Reader.exponentPart
  split
  next e _ =>
    change continuesNumber (some e) = false at ends
    simp only [continuesNumber, Bool.or_eq_false_iff, beq_eq_false_iff_ne, ne_eq,
      Option.some.injEq] at ends
    rw [if_neg]
    simp [ends.1.2, ends.2]
  next => rfl

end EndsNumber

/-- Digits at the front are taken up to the first symbol that is none. -/
theorem digits_append {ds : List Char} {rest : List Symbol} (nonempty : ds ≠ [])
    (all : ∀ c ∈ ds, c.isDigit = true) (stops : rest.head?.any Reader.isDigit = false)
    : Reader.digits (ds.map some ++ rest) = some (ds, rest) := by
  have each : ∀ s ∈ ds.map some, Reader.isDigit s = true := by
    intro s member
    obtain ⟨c, inside, rfl⟩ := List.mem_map.mp member
    exact all c inside
  have behind : rest.takeWhile Reader.isDigit = [] ∧ rest.dropWhile Reader.isDigit = rest := by
    cases rest with
    | nil => exact ⟨rfl, rfl⟩
    | cons s rest =>
        change Reader.isDigit s = false at stops
        simp [stops]
  unfold Reader.digits
  dsimp only
  rw [List.takeWhile_append_of_pos each, List.dropWhile_append_of_pos each, behind.1, behind.2,
    List.append_nil, if_neg (by simpa using nonempty)]
  simp

/-- Only zero has digits that begin with a zero, by induction on the number. -/
theorem head_toDigits {n : Nat} (positive : 0 < n) : (Nat.toDigits 10 n).head? ≠ some '0' := by
  induction n using Nat.strongRecOn with
  | ind n ih =>
      by_cases small : n < 10
      · rw [Nat.toDigits_of_lt_base small]
        have single : ∀ n < 10, 0 < n → [n.digitChar].head? ≠ some '0' := by decide
        exact single n small positive
      · have front := ih (n / 10) (by omega) (by omega)
        rw [Nat.toDigits_of_base_le (by decide) (by omega), List.head?_append]
        cases digits : Nat.toDigits 10 (n / 10) with
        | nil => exact absurd digits Nat.toDigits_ne_nil
        | cons c cs =>
            rw [digits] at front
            exact front

/-- The digits of a whole number are a whole part, which begins with a zero only when it is zero. -/
theorem wholePart_toDigits (n : Nat) {rest : List Symbol} (ends : EndsNumber rest)
    : Reader.wholePart ((Nat.toDigits 10 n).map some ++ rest)
      = some (Nat.toDigits 10 n, rest) := by
  rcases Nat.eq_zero_or_pos n with rfl | positive
  · rw [Nat.toDigits_zero]
    change (if rest.head?.any Reader.isDigit = true then none else some (['0'], rest)) = _
    rw [ends.not_isDigit]
    rfl
  · unfold Reader.wholePart
    split
    next begins =>
      have head := head_toDigits positive
      cases digits : Nat.toDigits 10 n with
      | nil => exact absurd digits Nat.toDigits_ne_nil
      | cons c cs =>
          rw [digits] at begins head
          cases begins
          exact absurd rfl head
    next =>
      exact digits_append Nat.toDigits_ne_nil
        (fun c => Nat.isDigit_of_mem_toDigits (by decide) (by decide)) ends.not_isDigit

/-- The digits of a whole number are a numeral. -/
theorem isNumeral_toDigits (n : Nat) : IsNumeral (Nat.toDigits 10 n) where
  begins := by
    cases digits : Nat.toDigits 10 n with
    | nil => exact absurd digits Nat.toDigits_ne_nil
    | cons c cs =>
        have member : c ∈ Nat.toDigits 10 n := digits ▸ List.mem_cons_self
        exact ⟨c, cs, rfl, .inl (Nat.isDigit_of_mem_toDigits (by decide) (by decide) member)⟩
  reads rest ends := by
    have unsigned : ∀ tail, (Nat.toDigits 10 n).map some ++ rest ≠ some '-' :: tail := by
      intro tail same
      cases digits : Nat.toDigits 10 n with
      | nil => exact absurd digits Nat.toDigits_ne_nil
      | cons c cs =>
          have digit : c.isDigit = true := Nat.isDigit_of_mem_toDigits (b := 10) (n := n)
            (by decide) (by decide) (digits ▸ List.mem_cons_self)
          rw [digits] at same
          cases same
          exact absurd digit (by decide)
    unfold Reader.number
    split
    next sign behind chosen =>
      split at chosen
      next same => exact absurd same (unsigned _)
      next =>
        cases chosen
        rw [wholePart_toDigits n ends, Option.bind_eq_bind, Option.bind_some]
        dsimp only
        rw [ends.fractionPart_eq, Option.bind_some]
        dsimp only
        rw [ends.exponentPart_eq]
        simp

/-- A whole number is read back if it is below the limit. -/
theorem Decode.natural_natural {limit n : Nat} (below : n < limit)
    : Decode.natural limit (.natural n) = some n := by
  have digits : (Nat.toDigits 10 n).all Char.isDigit = true :=
    List.all_eq_true.mpr fun c => Nat.isDigit_of_mem_toDigits (by decide) (by decide)
  have value : Number.ofDigits (Nat.toDigits 10 n) = n :=
    Nat.ofDigitChars_toDigits (by decide) (by decide)
  unfold Json.natural Decode.natural
  dsimp only
  rw [if_pos digits, value, if_pos below]

end DocPipeline.Json
