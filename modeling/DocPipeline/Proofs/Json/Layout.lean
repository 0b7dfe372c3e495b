import DocPipeline.Proofs.Json.Spelling
import DocPipeline.Proofs.Json.Text

/-! Both layouts of a JSON value, the one on a single line and the one spread over lines, spell the
value, so both are read back as it.
-/

namespace DocPipeline.Json

mutual

/-- All numbers are numerals and all strings hold texts. -/
def Writable : Json → Prop
  | .number spelling => IsNumeral spelling
  | .string s => s.isSome = true
  | .array items => WritableItems items
  | .object fields => WritableFields fields
  | _ => True

/-- All items are writable. -/
def WritableItems : List Json → Prop
  | [] => True
  | item :: items => Writable item ∧ WritableItems items

/-- All fields are writable. -/
def WritableFields : List (Option String × Json) → Prop
  | [] => True
  | (key, value) :: fields => key.isSome = true ∧ Writable value ∧ WritableFields fields

end

theorem isBlank_nil : IsBlank [] := by
  intro c member
  cases member

theorem isBlank_space : IsBlank [' '] := by
  intro c member
  rw [List.mem_singleton.mp member]
  decide

theorem isBlank_margin (depth : Nat) : IsBlank (Writer.margin depth) := by
  intro c member
  rcases List.mem_cons.mp member with rfl | space
  · decide
  · rw [List.eq_of_mem_replicate space]
    decide

theorem isBlank_newline : IsBlank ['\n'] :=
  isBlank_margin 0

theorem isString_text {s : Option String} (holds : s.isSome = true)
    : ∃ cs, Writer.string s = '"' :: cs ∧ IsString cs s := by
  obtain ⟨s, rfl⟩ := Option.isSome_iff_exists.mp holds
  exact ⟨_, rfl, fun rest => string_text rest s⟩

-----------------------------------------------------------------------------------------
-- On a single line
-----------------------------------------------------------------------------------------

mutual

/-- The layout on a single line spells its value; by recursion on the value. -/
theorem spells_compact : (json : Json) → Writable json → Spells (Writer.compact json) json
  | .null, _ => .null
  | .bool true, _ => .yes
  | .bool false, _ => .no
  | .number _, numeral => .number numeral
  | .string _, holds => by
      obtain ⟨cs, written, reads⟩ := isString_text holds
      rw [Writer.compact, written]
      exact .string reads
  | .array [], _ => .array (.nil isBlank_nil)
  | .array (item :: items), ⟨first, others⟩ =>
      .array (.cons isBlank_nil isBlank_nil (spells_compact item first)
        (spells_compactItems items others))
  | .object [], _ => .object (.nil isBlank_nil)
  | .object ((_, value) :: fields), ⟨holds, first, others⟩ => by
      obtain ⟨cs, written, reads⟩ := isString_text holds
      rw [Writer.compact, written, List.append_assoc]
      exact .object (.cons isBlank_nil isBlank_nil reads isBlank_nil isBlank_nil
        (spells_compact value first) (spells_compactFields fields others))

theorem spells_compactItems
    : (items : List Json) → WritableItems items
      → SpellsItems false (Writer.compactItems items) items
  | [], _ => .nil isBlank_nil
  | item :: items, ⟨first, others⟩ =>
      .cons isBlank_nil isBlank_nil (spells_compact item first) (spells_compactItems items others)

theorem spells_compactFields
    : (fields : List (Option String × Json)) → WritableFields fields
      → SpellsFields false (Writer.compactFields fields) fields
  | [], _ => .nil isBlank_nil
  | (_, value) :: fields, ⟨holds, first, others⟩ => by
      obtain ⟨cs, written, reads⟩ := isString_text holds
      rw [Writer.compactFields, written, List.append_assoc]
      exact .cons isBlank_nil isBlank_nil reads isBlank_nil isBlank_nil
        (spells_compact value first) (spells_compactFields fields others)

end

-----------------------------------------------------------------------------------------
-- Spread over lines
-----------------------------------------------------------------------------------------

mutual

/-- The layout over lines spells its value at every depth; by recursion on the value. -/
theorem spells_spread (depth : Nat)
    : (json : Json) → Writable json → Spells (Writer.spread depth json) json
  | .null, _ => .null
  | .bool true, _ => .yes
  | .bool false, _ => .no
  | .number _, numeral => .number numeral
  | .string _, holds => by
      obtain ⟨cs, written, reads⟩ := isString_text holds
      rw [Writer.spread, written]
      exact .string reads
  | .array [], _ => .array (.nil isBlank_nil)
  | .array (item :: items), ⟨first, others⟩ => by
      rw [Writer.spread, List.append_assoc]
      exact .array (.cons (isBlank_margin _) isBlank_nil (spells_spread (depth + 1) item first)
        (spells_spreadItems depth items others))
  | .object [], _ => .object (.nil isBlank_nil)
  | .object ((_, value) :: fields), ⟨holds, first, others⟩ => by
      obtain ⟨cs, written, reads⟩ := isString_text holds
      rw [Writer.spread, written]
      simp only [List.append_assoc, List.cons_append]
      exact .object (.cons (isBlank_margin _) isBlank_nil reads isBlank_nil isBlank_space
        (spells_spread (depth + 1) value first) (spells_spreadFields depth fields others))

theorem spells_spreadItems (depth : Nat)
    : (items : List Json) → WritableItems items
      → SpellsItems false (Writer.spreadItems depth items) items
  | [], _ => .nil (isBlank_margin depth)
  | item :: items, ⟨first, others⟩ => by
      rw [Writer.spreadItems, List.append_assoc]
      exact .cons isBlank_nil (isBlank_margin _) (spells_spread (depth + 1) item first)
        (spells_spreadItems depth items others)

theorem spells_spreadFields (depth : Nat)
    : (fields : List (Option String × Json)) → WritableFields fields
      → SpellsFields false (Writer.spreadFields depth fields) fields
  | [], _ => .nil (isBlank_margin depth)
  | (_, value) :: fields, ⟨holds, first, others⟩ => by
      obtain ⟨cs, written, reads⟩ := isString_text holds
      rw [Writer.spreadFields, written]
      simp only [List.append_assoc, List.cons_append]
      exact .cons isBlank_nil (isBlank_margin _) reads isBlank_nil isBlank_space
        (spells_spread (depth + 1) value first) (spells_spreadFields depth fields others)

end

-----------------------------------------------------------------------------------------
-- Reading back
-----------------------------------------------------------------------------------------

variable {json : Json}

/-- A value on a single line is read back. -/
theorem ofText_compact (writable : Writable json) : ofText json.compact = some json := by
  have read := ofText_of_spells isBlank_nil (spells_compact json writable) isBlank_nil
  rwa [List.nil_append, List.append_nil] at read

/-- A value spread over lines is read back. -/
theorem ofText_pretty (writable : Writable json) : ofText json.pretty = some json := by
  have read := ofText_of_spells isBlank_nil (spells_spread 0 json writable) isBlank_nil
  rwa [List.nil_append, List.append_nil] at read

/-- So is one that ends its last line. -/
theorem ofText_pretty_line (writable : Writable json)
    : ofText (json.pretty ++ "\n") = some json := by
  have read := ofText_of_spells isBlank_nil (spells_spread 0 json writable) isBlank_newline
  rwa [List.nil_append, String.ofList_append] at read

end DocPipeline.Json
