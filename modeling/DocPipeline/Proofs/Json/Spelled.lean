import DocPipeline.Proofs.Json.Grammar
import DocPipeline.Proofs.Json.Layout

/-! Texts that are read as JSON. Spelling out a value is the only way to be read as it, so a text is
read as a value exactly if it is a spelling of that value with white space around it.
-/

namespace DocPipeline.Json

variable {cs : List Char} {rest : List Symbol}

theorem leaves_of_word {expected : List Char}
    (read : Reader.word expected (cs.map some) = some rest) : Leaves cs expected rest := by
  unfold Reader.word at read
  split at read
  next front =>
    cases read
    rw [← List.map_take] at front
    have same : cs.take expected.length = expected :=
      (List.map_inj_right fun _ _ => Option.some.inj).mp front
    have parted := List.take_append_drop expected.length cs
    rw [same] at parted
    exact ⟨cs.drop expected.length, parted.symm, List.map_drop.symm⟩
  next => cases read

/-- The white space at the front of a text, and what is behind it. -/
theorem blank_of_skipSpace (cs : List Char)
    : ∃ gap tail, IsBlank gap ∧ cs = gap ++ tail
      ∧ Reader.skipSpace (cs.map some) = tail.map some := by
  refine ⟨cs.takeWhile (Reader.isSpace ∘ some), cs.dropWhile (Reader.isSpace ∘ some), ?_,
    List.takeWhile_append_dropWhile.symm, List.dropWhile_map⟩
  intro c member
  exact List.mem_takeWhile_imp (p := Reader.isSpace ∘ some) member

/-- What is taken for a value with so much fuel is spelled out. -/
def TakesValues (fuel : Nat) : Prop :=
  ∀ cs json rest, Reader.value fuel (cs.map some) = some (json, rest) →
    ∃ used, Spells used json ∧ Leaves cs used rest

/-- What is taken for items with so much fuel is spelled out. -/
def TakesItems (fuel : Nat) : Prop :=
  ∀ first cs items rest, Reader.items fuel first (cs.map some) = some (items, rest) →
    ∃ used, SpellsItems first used items ∧ Leaves cs used rest

/-- What is taken for fields with so much fuel is spelled out. -/
def TakesFields (fuel : Nat) : Prop :=
  ∀ first cs fields rest, Reader.fields fuel first (cs.map some) = some (fields, rest) →
    ∃ used, SpellsFields first used fields ∧ Leaves cs used rest

variable {fuel : Nat}

/-- A word of letters is spelled as it stands, by its first letter and those behind it. -/
theorem spells_of_word {c : Char} {word : List Char} {json taken : Json}
    (spells : Spells (c :: word) json)
    (read : (Reader.word word (cs.map some)).map (json, ·) = some (taken, rest))
    : ∃ used, Spells used taken ∧ Leaves (c :: cs) used rest := by
  obtain ⟨left, found, joined⟩ := Option.map_eq_some_iff.mp read
  cases joined
  exact ⟨c :: word, spells, (leaves_of_word found).cons c⟩

theorem takesValues_succ (items : TakesItems fuel) (fields : TakesFields fuel)
    : TakesValues (fuel + 1) := by
  intro cs json rest read
  unfold Reader.value at read
  split at read
  next tail same =>
    obtain ⟨cs, rfl, rfl⟩ := eq_cons_of_map_some same
    exact spells_of_word .null read
  next tail same =>
    obtain ⟨cs, rfl, rfl⟩ := eq_cons_of_map_some same
    exact spells_of_word .yes read
  next tail same =>
    obtain ⟨cs, rfl, rfl⟩ := eq_cons_of_map_some same
    exact spells_of_word .no read
  next tail same =>
    obtain ⟨cs, rfl, rfl⟩ := eq_cons_of_map_some same
    obtain ⟨⟨s, left⟩, found, joined⟩ := Option.map_eq_some_iff.mp read
    cases joined
    obtain ⟨used, isString, leaves⟩ := leaves_of_string found
    exact ⟨'"' :: used, .string isString, leaves.cons '"'⟩
  next tail same =>
    obtain ⟨cs, rfl, rfl⟩ := eq_cons_of_map_some same
    obtain ⟨⟨vs, left⟩, found, joined⟩ := Option.map_eq_some_iff.mp read
    cases joined
    obtain ⟨used, inside, leaves⟩ := items true cs vs rest found
    exact ⟨'[' :: used, .array inside, leaves.cons '['⟩
  next tail same =>
    obtain ⟨cs, rfl, rfl⟩ := eq_cons_of_map_some same
    obtain ⟨⟨fs, left⟩, found, joined⟩ := Option.map_eq_some_iff.mp read
    cases joined
    obtain ⟨used, inside, leaves⟩ := fields true cs fs rest found
    exact ⟨'{' :: used, .object inside, leaves.cons '{'⟩
  next =>
    obtain ⟨spelling, number, rfl, leaves⟩ := leaves_of_number read
    exact ⟨spelling, .number number.isNumeral, leaves⟩

/-- An item or a field that is not the first stands behind a comma. -/
theorem leaves_of_separator {α : Type} {first : Bool} {next : List Symbol → Option α} {taken : α}
    (read : (if first then (some (cs.map some)).bind next
      else (Reader.comma (cs.map some)).bind next) = some taken)
    : ∃ tail, cs = separator first ++ tail ∧ next (tail.map some) = some taken := by
  cases first with
  | true => exact ⟨cs, rfl, read⟩
  | false =>
      obtain ⟨left, comma, read⟩ := Option.bind_eq_some_iff.mp read
      obtain ⟨tail, rfl, rfl⟩ := leaves_of_word comma
      exact ⟨tail, rfl, read⟩

theorem takesItems_succ (values : TakesValues fuel) (items : TakesItems fuel)
    : TakesItems (fuel + 1) := by
  intro first cs taken rest read
  obtain ⟨gap, cs, blank, rfl, behind⟩ := blank_of_skipSpace cs
  rw [Reader.items, behind] at read
  split at read
  next tail same =>
    obtain ⟨cs, rfl, rfl⟩ := eq_cons_of_map_some same
    cases read
    exact ⟨gap ++ [']'], .nil blank, cs, by simp, rfl⟩
  next =>
    dsimp only at read
    obtain ⟨cs, rfl, inside⟩ := leaves_of_separator read
    simp only [Option.bind_eq_bind, Option.bind_eq_some_iff, Option.pure_def, Option.some.injEq,
      Prod.mk.injEq, Prod.exists] at inside
    obtain ⟨item, left, head, others, _, tail, rfl, rfl⟩ := inside
    obtain ⟨before, cs, indent, rfl, start⟩ := blank_of_skipSpace cs
    rw [start] at head
    obtain ⟨value, spelled, cs, rfl, rfl⟩ := values cs item left head
    obtain ⟨used, inside, cs, rfl, rfl⟩ := items false cs others _ tail
    exact ⟨_, .cons blank indent spelled inside, cs, by simp only [List.append_assoc], rfl⟩

theorem takesFields_succ (values : TakesValues fuel) (fields : TakesFields fuel)
    : TakesFields (fuel + 1) := by
  intro first cs taken rest read
  obtain ⟨gap, cs, blank, rfl, behind⟩ := blank_of_skipSpace cs
  rw [Reader.fields, behind] at read
  split at read
  next tail same =>
    obtain ⟨cs, rfl, rfl⟩ := eq_cons_of_map_some same
    cases read
    exact ⟨gap ++ ['}'], .nil blank, cs, by simp, rfl⟩
  next =>
    dsimp only at read
    obtain ⟨cs, rfl, inside⟩ := leaves_of_separator read
    simp only [Option.bind_eq_bind, Option.bind_eq_some_iff, Option.pure_def, Option.some.injEq,
      Prod.mk.injEq, Prod.exists] at inside
    obtain ⟨afterQuote, quote, name, afterName, key, afterColon, colon, value, left, head, others,
      _, tail, rfl, rfl⟩ := inside
    obtain ⟨before, cs, indent, rfl, start⟩ := blank_of_skipSpace cs
    rw [start] at quote
    obtain ⟨cs, rfl, rfl⟩ := leaves_of_word quote
    obtain ⟨keyUsed, named, cs, rfl, rfl⟩ := leaves_of_string key
    obtain ⟨behindKey, cs, blankBehind, rfl, atColon⟩ := blank_of_skipSpace cs
    rw [atColon] at colon
    obtain ⟨cs, rfl, rfl⟩ := leaves_of_word colon
    obtain ⟨space, cs, blankSpace, rfl, atValue⟩ := blank_of_skipSpace cs
    rw [atValue] at head
    obtain ⟨valueUsed, spelled, cs, rfl, rfl⟩ := values cs value left head
    obtain ⟨used, inside, cs, rfl, rfl⟩ := fields false cs others _ tail
    exact ⟨_, .cons blank indent named blankBehind blankSpace spelled inside, cs, by simp, rfl⟩

/-- Whatever is taken is spelled out, by induction on the fuel. -/
theorem takes_spelled (fuel : Nat) : TakesValues fuel ∧ TakesItems fuel ∧ TakesFields fuel := by
  induction fuel with
  | zero =>
      refine ⟨?_, ?_, ?_⟩
      · intro cs json rest read
        cases read
      · intro first cs items rest read
        cases read
      · intro first cs fields rest read
        cases read
  | succ fuel ih =>
      obtain ⟨values, items, fields⟩ := ih
      exact ⟨takesValues_succ items fields, takesItems_succ values items,
        takesFields_succ values fields⟩

-----------------------------------------------------------------------------------------
-- Texts
-----------------------------------------------------------------------------------------

/-- The text spells the value out, with white space before and behind it. -/
def Spelled (text : String) (json : Json) : Prop :=
  ∃ before cs behind, text.toList = before ++ cs ++ behind
    ∧ IsBlank before ∧ Spells cs json ∧ IsBlank behind

/-- A text is read as a value exactly if it spells that value out. -/
theorem ofText_eq_some_iff {text : String} {json : Json}
    : ofText text = some json ↔ Spelled text json := by
  constructor
  · intro read
    obtain ⟨before, cs, blank, same, start⟩ := blank_of_skipSpace text.toList
    unfold ofText ofSymbols symbolsOfText at read
    rw [start] at read
    obtain ⟨⟨taken, rest⟩, value, rest'⟩ := Option.bind_eq_some_iff.mp read
    obtain ⟨used, spells, behind, rfl, rfl⟩ := (takes_spelled _).1 cs taken rest value
    obtain ⟨gap, tail, blankBehind, rfl, left⟩ := blank_of_skipSpace behind
    dsimp only at rest'
    rw [left] at rest'
    split at rest'
    next done =>
      cases rest'
      cases tail with
      | nil =>
          rw [List.append_nil] at same
          exact ⟨before, used, gap, by rw [same, List.append_assoc], blank, spells, blankBehind⟩
      | cons c tail => cases done
    next => cases rest'
  · rintro ⟨before, cs, behind, same, blank, spells, blankBehind⟩
    rw [← String.ofList_toList (s := text), same]
    exact ofText_of_spells blank spells blankBehind

-----------------------------------------------------------------------------------------
-- Well-formed values
-----------------------------------------------------------------------------------------

/-- The value can be spelled out: it stands for something the grammar derives. -/
def IsSpellable (json : Json) : Prop :=
  ∃ cs, Spells cs json

theorem exists_spelled_iff {json : Json} : (∃ text, Spelled text json) ↔ IsSpellable json := by
  constructor
  · rintro ⟨_, _, cs, _, _, _, spells, _⟩
    exact ⟨cs, spells⟩
  · rintro ⟨cs, spells⟩
    exact ⟨String.ofList cs, [], cs, [], by simp, isBlank_nil, spells, isBlank_nil⟩

/-- Items are spelled one behind the other, by induction on them. -/
theorem exists_spellsItems_iff {first : Bool} {items : List Json}
    : (∃ cs, SpellsItems first cs items) ↔ ∀ item ∈ items, IsSpellable item := by
  induction items generalizing first with
  | nil => exact iff_of_true ⟨_, .nil isBlank_nil⟩ fun _ member => by cases member
  | cons item items ih =>
      rw [List.forall_mem_cons, ← @ih false]
      constructor
      · rintro ⟨_, _ | ⟨_, _, head, tail⟩⟩
        exact ⟨⟨_, head⟩, _, tail⟩
      · rintro ⟨⟨_, head⟩, _, tail⟩
        exact ⟨_, .cons isBlank_nil isBlank_nil head tail⟩

/-- Fields are spelled one behind the other, by induction on them. -/
theorem exists_spellsFields_iff {first : Bool} {fields : List (Option String × Json)}
    : (∃ cs, SpellsFields first cs fields)
      ↔ ∀ field ∈ fields, (∃ key, IsString key field.1) ∧ IsSpellable field.2 := by
  induction fields generalizing first with
  | nil => exact iff_of_true ⟨_, .nil isBlank_nil⟩ fun _ member => by cases member
  | cons field fields ih =>
      rw [List.forall_mem_cons, ← @ih false]
      constructor
      · rintro ⟨_, _ | ⟨_, _, named, _, _, head, tail⟩⟩
        exact ⟨⟨⟨_, named⟩, _, head⟩, _, tail⟩
      · rintro ⟨⟨⟨_, named⟩, _, head⟩, _, tail⟩
        exact ⟨_, .cons isBlank_nil isBlank_nil named isBlank_nil isBlank_nil head tail⟩

theorem isSpellable_array_iff {items : List Json}
    : IsSpellable (.array items) ↔ ∀ item ∈ items, IsSpellable item := by
  rw [← @exists_spellsItems_iff true]
  constructor
  · rintro ⟨_, spells⟩
    cases spells with
    | array inside => exact ⟨_, inside⟩
  · rintro ⟨_, inside⟩
    exact ⟨_, .array inside⟩

theorem isSpellable_object_iff {fields : List (Option String × Json)}
    : IsSpellable (.object fields)
      ↔ ∀ field ∈ fields, (∃ key, IsString key field.1) ∧ IsSpellable field.2 := by
  rw [← @exists_spellsFields_iff true]
  constructor
  · rintro ⟨_, spells⟩
    cases spells with
    | object inside => exact ⟨_, inside⟩
  · rintro ⟨_, inside⟩
    exact ⟨_, .object inside⟩

end DocPipeline.Json
