import DocPipeline.Proofs.Json.Number

/-! Spellings of JSON values. A value can be spelled with any white space between its parts; the
reader takes each of its spellings for the value, whatever stands behind it.
-/

namespace DocPipeline.Json

/-- There is nothing but white space between parts of a value. -/
def IsBlank (gap : List Char) : Prop :=
  ∀ c ∈ gap, Reader.isSpace (some c) = true

/-- Behind an opening quote, the characters are read as the string, their closing quote included. -/
def IsString (cs : List Char) (s : Option String) : Prop :=
  ∀ rest, Reader.string (cs.map some ++ rest) = some (s, rest)

/-- What stands before an item or a field: a comma, unless it is the first one. -/
def separator (first : Bool) : List Char :=
  if first then [] else [',']

mutual

/-- The characters spell the value. -/
inductive Spells : List Char → Json → Prop
  | null : Spells ['n', 'u', 'l', 'l'] .null
  | yes : Spells ['t', 'r', 'u', 'e'] (.bool true)
  | no : Spells ['f', 'a', 'l', 's', 'e'] (.bool false)
  | number {spelling : List Char} (numeral : IsNumeral spelling)
    : Spells spelling (.number spelling)
  | string {cs : List Char} {s : Option String} (reads : IsString cs s)
    : Spells ('"' :: cs) (.string s)
  | array {cs : List Char} {items : List Json} (inside : SpellsItems true cs items)
    : Spells ('[' :: cs) (.array items)
  | object {cs : List Char} {fields : List (Option String × Json)}
    (inside : SpellsFields true cs fields)
    : Spells ('{' :: cs) (.object fields)

/-- The characters spell the items of an array, to its closing bracket. -/
inductive SpellsItems : Bool → List Char → List Json → Prop
  | nil {first : Bool} {gap : List Char} (blank : IsBlank gap) : SpellsItems first (gap ++ [']']) []
  | cons {first : Bool} {gap before cs rest : List Char} {item : Json} {items : List Json}
    (blank : IsBlank gap) (indent : IsBlank before) (head : Spells cs item)
    (tail : SpellsItems false rest items)
    : SpellsItems first (gap ++ (separator first ++ (before ++ (cs ++ rest)))) (item :: items)

/-- The characters spell the fields of an object, to its closing brace. -/
inductive SpellsFields : Bool → List Char → List (Option String × Json) → Prop
  | nil {first : Bool} {gap : List Char} (blank : IsBlank gap)
    : SpellsFields first (gap ++ ['}']) []
  | cons {first : Bool} {gap before key behind space cs rest : List Char} {name : Option String}
    {value : Json} {fields : List (Option String × Json)}
    (blank : IsBlank gap) (indent : IsBlank before) (named : IsString key name)
    (blankBehind : IsBlank behind) (blankSpace : IsBlank space) (head : Spells cs value)
    (tail : SpellsFields false rest fields)
    : SpellsFields first
        (gap ++ (separator first ++ (before ++ '"' :: (key ++ (behind ++ ':' ::
          (space ++ (cs ++ rest)))))))
        ((name, value) :: fields)

end

-----------------------------------------------------------------------------------------
-- White space and first characters
-----------------------------------------------------------------------------------------

theorem skipSpace_blank {gap : List Char} (blank : IsBlank gap) (symbols : List Symbol)
    : Reader.skipSpace (gap.map some ++ symbols) = Reader.skipSpace symbols := by
  have each : ∀ s ∈ gap.map some, Reader.isSpace s = true := by
    intro s member
    obtain ⟨c, inside, rfl⟩ := List.mem_map.mp member
    exact blank c inside
  exact List.dropWhile_append_of_pos each

theorem skipSpace_solid {s : Symbol} (solid : Reader.isSpace s = false) (symbols : List Symbol)
    : Reader.skipSpace (s :: symbols) = s :: symbols := by
  simp [Reader.skipSpace, solid]

/-- The character can be the first one of a value. -/
def opensValue (c : Char) : Bool :=
  ['n', 't', 'f', '"', '[', '{', '-'].contains c || c.isDigit

/-- A character that opens a value is no white space, and neither closes nor separates anything. -/
structure IsSolid (c : Char) : Prop where
  notSpace : Reader.isSpace (some c) = false
  notBracket : c ≠ ']'
  notBrace : c ≠ '}'

theorem isSolid_of_opensValue {c : Char} (opens : opensValue c = true) : IsSolid c := by
  have other : ∀ d, opensValue d = false → c ≠ d := by
    rintro d closed rfl
    rw [opens] at closed
    cases closed
  refine ⟨?_, other _ (by decide), other _ (by decide)⟩
  simp only [Reader.isSpace, Bool.or_eq_false_iff, beq_eq_false_iff_ne, ne_eq, Option.some.injEq]
  exact ⟨⟨⟨other _ (by decide), other _ (by decide)⟩, other _ (by decide)⟩, other _ (by decide)⟩

/-- A spelling begins with a character that opens a value, by cases on what is spelled. -/
theorem Spells.begins {cs : List Char} {json : Json} (spells : Spells cs json)
    : ∃ c tail, cs = c :: tail ∧ opensValue c = true := by
  cases spells with
  | number numeral =>
      obtain ⟨c, tail, same, digit | minus⟩ := numeral.begins
      · exact ⟨c, tail, same, by simp [opensValue, digit]⟩
      · exact ⟨c, tail, same, by simp [opensValue, minus]⟩
  | null | yes | no | string | array | object => exact ⟨_, _, rfl, by decide⟩

theorem Spells.length_pos {cs : List Char} {json : Json} (spells : Spells cs json)
    : 0 < cs.length := by
  obtain ⟨c, tail, rfl, _⟩ := spells.begins
  exact Nat.succ_pos _

/-- Behind white space, a spelled value is where it begins. -/
theorem Spells.skipSpace_eq {cs : List Char} {json : Json} (spells : Spells cs json)
    (rest : List Symbol) : Reader.skipSpace (cs.map some ++ rest) = cs.map some ++ rest := by
  obtain ⟨c, tail, rfl, opens⟩ := spells.begins
  exact skipSpace_solid (isSolid_of_opensValue opens).notSpace _

theorem continuesNumber_of_isSpace {s : Symbol} (space : Reader.isSpace s = true)
    : continuesNumber s = false := by
  simp only [Reader.isSpace, Bool.or_eq_true, beq_iff_eq] at space
  rcases space with ((rfl | rfl) | rfl) | rfl <;> decide

/-- What follows an item or a field ends a number: white space, a comma or a closing mark. -/
theorem endsNumber_of_blank {gap : List Char} (blank : IsBlank gap) {rest : List Symbol}
    (ends : EndsNumber rest) : EndsNumber (gap.map some ++ rest) := by
  cases gap with
  | nil => exact ends
  | cons c gap => exact EndsNumber.cons (continuesNumber_of_isSpace (blank c List.mem_cons_self))

theorem SpellsItems.endsNumber {cs : List Char} {items : List Json}
    (spells : SpellsItems false cs items) (rest : List Symbol)
    : EndsNumber (cs.map some ++ rest) := by
  cases spells with
  | nil blank | cons blank =>
      rw [List.map_append, List.append_assoc]
      exact endsNumber_of_blank blank (EndsNumber.cons (by decide))

theorem SpellsFields.endsNumber {cs : List Char} {fields : List (Option String × Json)}
    (spells : SpellsFields false cs fields) (rest : List Symbol)
    : EndsNumber (cs.map some ++ rest) := by
  cases spells with
  | nil blank | cons blank =>
      rw [List.map_append, List.append_assoc]
      exact endsNumber_of_blank blank (EndsNumber.cons (by decide))

-----------------------------------------------------------------------------------------
-- Where items and fields begin
-----------------------------------------------------------------------------------------

/-- The text begins with a character that no white space, closing mark or comma is taken for. -/
def StartsSolid (symbols : List Symbol) : Prop :=
  ∃ c tail, symbols = some c :: tail ∧ IsSolid c

theorem StartsSolid.skipSpace_eq {symbols : List Symbol} (solid : StartsSolid symbols)
    : Reader.skipSpace symbols = symbols := by
  obtain ⟨c, tail, rfl, isSolid⟩ := solid
  exact skipSpace_solid isSolid.notSpace tail

theorem Spells.startsSolid {cs : List Char} {json : Json} (spells : Spells cs json)
    (rest : List Symbol) : StartsSolid (cs.map some ++ rest) := by
  obtain ⟨c, tail, rfl, opens⟩ := spells.begins
  exact ⟨c, _, rfl, isSolid_of_opensValue opens⟩

variable {gap before : List Char} {symbols : List Symbol}

/-- An array goes on with an item behind white space, and behind a comma unless it is the first. -/
theorem items_cons (fuel : Nat) (first : Bool) (blank : IsBlank gap) (indent : IsBlank before)
    (solid : StartsSolid symbols)
    : Reader.items (fuel + 1) first
        (gap.map some ++ ((separator first).map some ++ (before.map some ++ symbols)))
      = (Reader.value fuel symbols).bind fun read =>
          (Reader.items fuel false read.2).bind fun more =>
            some (read.1 :: more.1, more.2) := by
  have inside : Reader.skipSpace (before.map some ++ symbols) = symbols := by
    rw [skipSpace_blank indent, solid.skipSpace_eq]
  have again := solid.skipSpace_eq
  rw [Reader.items, skipSpace_blank blank]
  cases first with
  | true =>
      have reached : Reader.skipSpace ((separator true).map some ++ (before.map some ++ symbols))
          = symbols := inside
      rw [reached]
      obtain ⟨c, tail, rfl, isSolid⟩ := solid
      split
      next same =>
        cases same
        exact absurd rfl isSolid.notBracket
      next => simp [again]
  | false =>
      have reached : Reader.skipSpace ((separator false).map some ++ (before.map some ++ symbols))
          = some ',' :: (before.map some ++ symbols) := skipSpace_solid (by decide) _
      rw [reached]
      simp [Reader.comma, Reader.word, inside]

/-- An object goes on with a field behind white space, and behind a comma unless it is the first. -/
theorem fields_cons (fuel : Nat) (first : Bool) (blank : IsBlank gap) (indent : IsBlank before)
    {key behind space : List Char} {name : Option String} (named : IsString key name)
    (blankBehind : IsBlank behind) (blankSpace : IsBlank space) (solid : StartsSolid symbols)
    : Reader.fields (fuel + 1) first
        (gap.map some ++ ((separator first).map some ++ (before.map some ++ some '"'
          :: (key.map some ++ (behind.map some ++ some ':' :: (space.map some ++ symbols))))))
      = (Reader.value fuel symbols).bind fun read =>
          (Reader.fields fuel false read.2).bind fun more =>
            some ((name, read.1) :: more.1, more.2) := by
  have quote (rest : List Symbol)
      : Reader.skipSpace (some '"' :: rest) = some '"' :: rest := skipSpace_solid (by decide) rest
  have inside (rest : List Symbol)
      : Reader.skipSpace (before.map some ++ some '"' :: rest) = some '"' :: rest := by
    rw [skipSpace_blank indent, quote]
  have colon (rest : List Symbol)
      : Reader.skipSpace (behind.map some ++ some ':' :: rest) = some ':' :: rest := by
    rw [skipSpace_blank blankBehind, skipSpace_solid (by decide)]
  have value : Reader.skipSpace (space.map some ++ symbols) = symbols := by
    rw [skipSpace_blank blankSpace, solid.skipSpace_eq]
  rw [Reader.fields, skipSpace_blank blank]
  cases first with
  | true =>
      have reached (rest : List Symbol)
          : Reader.skipSpace ((separator true).map some ++ (before.map some ++ some '"' :: rest))
            = some '"' :: rest := inside rest
      rw [reached]
      simp [Reader.word, quote, named _, colon, value]
  | false =>
      have reached (rest : List Symbol)
          : Reader.skipSpace ((separator false).map some ++ (before.map some ++ some '"' :: rest))
            = some ',' :: (before.map some ++ some '"' :: rest) := skipSpace_solid (by decide) _
      rw [reached]
      simp [Reader.comma, Reader.word, inside, named _, colon, value]

-----------------------------------------------------------------------------------------
-- Reading
-----------------------------------------------------------------------------------------

/-- Values are read from their spellings with so much fuel. -/
def ReadsValues (fuel : Nat) : Prop :=
  ∀ cs json rest, Spells cs json → 2 * cs.length ≤ fuel → EndsNumber rest →
    Reader.value fuel (cs.map some ++ rest) = some (json, rest)

/-- Items are read from their spellings with so much fuel. -/
def ReadsItems (fuel : Nat) : Prop :=
  ∀ first cs items rest, SpellsItems first cs items → 2 * cs.length < fuel →
    Reader.items fuel first (cs.map some ++ rest) = some (items, rest)

/-- Fields are read from their spellings with so much fuel. -/
def ReadsFields (fuel : Nat) : Prop :=
  ∀ first cs fields rest, SpellsFields first cs fields → 2 * cs.length < fuel →
    Reader.fields fuel first (cs.map some ++ rest) = some (fields, rest)

variable {fuel : Nat}

/-- Reading a value takes one unit of fuel more than reading what is inside it. -/
theorem readsValues_succ (items : ReadsItems fuel) (fields : ReadsFields fuel)
    : ReadsValues (fuel + 1) := by
  intro cs json rest spells enough ends
  cases spells with
  | null | yes | no => simp [Reader.value, Reader.word]
  | number numeral =>
      have read := numeral.reads rest ends
      obtain ⟨c, tail, rfl, begins⟩ := numeral.begins
      rw [← read]
      unfold Reader.value
      split
      case h_7 => rfl
      all_goals
        next same =>
          cases same
          exact absurd begins (by decide)
  | string reads =>
      have read := reads rest
      simp only [List.map_cons, List.cons_append, Reader.value, read]
      rfl
  | array inside =>
      have read := items true _ _ rest inside (by rw [List.length_cons] at enough; omega)
      simp only [List.map_cons, List.cons_append, Reader.value, read]
      rfl
  | object inside =>
      have read := fields true _ _ rest inside (by rw [List.length_cons] at enough; omega)
      simp only [List.map_cons, List.cons_append, Reader.value, read]
      rfl

/-- Reading the items that are left takes one unit more than reading the first of them. -/
theorem readsItems_succ (values : ReadsValues fuel) (items : ReadsItems fuel)
    : ReadsItems (fuel + 1) := by
  intro first cs given rest spells enough
  cases spells with
  | nil blank =>
      rw [List.map_append, List.append_assoc, Reader.items, skipSpace_blank blank]
      rfl
  | @cons _ gap before head tail item others blank indent spelled behind =>
      have nonempty := spelled.length_pos
      simp only [List.length_append] at enough
      have read := values head item (tail.map some ++ rest) spelled (by omega)
        (behind.endsNumber rest)
      have more := items false tail others rest behind (by omega)
      simp only [List.map_append, List.append_assoc]
      rw [items_cons fuel first blank indent (spelled.startsSolid _), read, Option.bind_some, more,
        Option.bind_some]

/-- Reading the fields that are left takes one unit more than reading the first of them. -/
theorem readsFields_succ (values : ReadsValues fuel) (fields : ReadsFields fuel)
    : ReadsFields (fuel + 1) := by
  intro first cs given rest spells enough
  cases spells with
  | nil blank =>
      rw [List.map_append, List.append_assoc, Reader.fields, skipSpace_blank blank]
      rfl
  | @cons _ gap before key colon space head tail name value others blank indent named
      blankBehind blankSpace spelled behind =>
      have nonempty := spelled.length_pos
      simp only [List.length_append, List.length_cons] at enough
      have read := values head value (tail.map some ++ rest) spelled (by omega)
        (behind.endsNumber rest)
      have more := fields false tail others rest behind (by omega)
      simp only [List.map_append, List.map_cons, List.append_assoc, List.cons_append]
      rw [fields_cons fuel first blank indent named blankBehind blankSpace
        (spelled.startsSolid _), read, Option.bind_some, more, Option.bind_some]

/-- Whatever is spelled is read with enough fuel, by induction on the fuel. -/
theorem reads_spelled (fuel : Nat) : ReadsValues fuel ∧ ReadsItems fuel ∧ ReadsFields fuel := by
  induction fuel with
  | zero =>
      refine ⟨?_, ?_, ?_⟩
      · intro cs json rest spells enough _
        have nonempty := spells.length_pos
        omega
      · intro first cs items rest spells enough
        omega
      · intro first cs fields rest spells enough
        omega
  | succ fuel ih =>
      obtain ⟨values, items, fields⟩ := ih
      exact ⟨readsValues_succ items fields, readsItems_succ values items,
        readsFields_succ values fields⟩

/-- A text with a spelling of a value and white space around it is read as that value. -/
theorem ofText_of_spells {before cs behind : List Char} {json : Json} (blank : IsBlank before)
    (spells : Spells cs json) (blankBehind : IsBlank behind)
    : ofText (String.ofList (before ++ cs ++ behind)) = some json := by
  have ends : EndsNumber (behind.map some) := by
    have all := endsNumber_of_blank blankBehind EndsNumber.nil
    rwa [List.append_nil] at all
  have read := (reads_spelled (2 * ((before ++ cs ++ behind).map some).length + 2)).1 cs json
    (behind.map some) spells (by simp only [List.length_map, List.length_append]; omega) ends
  have start : Reader.skipSpace ((before ++ cs ++ behind).map some)
      = cs.map some ++ behind.map some := by
    rw [List.append_assoc, List.map_append, skipSpace_blank blank, List.map_append,
      spells.skipSpace_eq]
  have done : Reader.skipSpace (behind.map some) = [] := by
    have all := skipSpace_blank blankBehind []
    rwa [List.append_nil] at all
  unfold ofText ofSymbols symbolsOfText
  rw [String.toList_ofList, start, read]
  simp [done]

end DocPipeline.Json
