import DocPipeline.Proofs.Json.Layout

/-! Records of JSON read by the names of their fields. In a record whose names are distinct, the
reader finds under each name what the record holds there.
-/

namespace DocPipeline.Json

/-- The values under a key, in a record with distinct names; by induction on the fields. -/
theorem Decode.entriesOf_record {fields : List (String × Json)}
    (distinct : (fields.map (·.1)).Nodup) (key : String)
    : entriesOf key (fields.map fun field => (some field.1, field.2))
      = (fields.lookup key).toList := by
  induction fields with
  | nil => rfl
  | cons field fields ih =>
      obtain ⟨name, value⟩ := field
      obtain ⟨fresh, others⟩ := List.nodup_cons.mp distinct
      have rest := ih others
      unfold entriesOf at rest ⊢
      by_cases same : key = name
      · subst same
        have absent : fields.lookup key = none := by
          rw [List.lookup_eq_none_iff]
          intro other member
          have different : key ≠ other.1 := fun equal =>
            fresh (List.mem_map.mpr ⟨other, member, equal.symm⟩)
          simpa using different
        rw [absent] at rest
        rw [List.map_cons, List.filter_cons_of_pos (by simp), List.map_cons, rest,
          List.lookup_cons_self]
        rfl
      · rw [List.map_cons, List.filter_cons_of_neg (by simpa using fun equal => same equal.symm),
          rest, List.lookup_cons, beq_eq_false_iff_ne.mpr same]

/-- A record with distinct names has for each name what it holds there. -/
theorem Decode.slots_record {fields : List (String × Json)}
    (distinct : (fields.map (·.1)).Nodup) (names : List String)
    : slots names (.record fields) = some (names.map fun name => fields.lookup name) := by
  have each : entry (fields.map fun field => (some field.1, field.2))
      = fun name => some (fields.lookup name) := by
    funext name
    unfold entry
    rw [entriesOf_record distinct]
    cases fields.lookup name <;> rfl
  have named : (fields.map fun field => (some field.1, field.2)).all (·.1.isSome) = true := by
    simp
  change (if _ then _ else none) = _
  rw [if_pos named, each]
  exact List.mapM_pure

/-- A list of values is read item by item, by induction on the values. -/
theorem Decode.list_map {α : Type} {read : Json → Option α} {write : α → Json}
    {values : List α} (each : ∀ value ∈ values, read (write value) = some value)
    : list read (.array (values.map write)) = some values := by
  change (values.map write).mapM read = some values
  induction values with
  | nil => rfl
  | cons value values ih =>
      rw [List.map_cons, List.mapM_cons, each value List.mem_cons_self,
        ih fun other member => each other (List.mem_cons_of_mem _ member)]
      rfl

/-- The fields of a record are writable if its values are, since its names are texts. -/
theorem writable_record {fields : List (String × Json)}
    (each : ∀ field ∈ fields, Writable field.2) : Writable (.record fields) := by
  change WritableFields _
  induction fields with
  | nil => trivial
  | cons field fields ih =>
      exact ⟨rfl, each field List.mem_cons_self,
        ih fun other member => each other (List.mem_cons_of_mem _ member)⟩

theorem writable_array {items : List Json} (each : ∀ item ∈ items, Writable item)
    : Writable (.array items) := by
  change WritableItems _
  induction items with
  | nil => trivial
  | cons item items ih =>
      exact ⟨each item List.mem_cons_self,
        ih fun other member => each other (List.mem_cons_of_mem _ member)⟩

theorem writable_text (s : String) : Writable (.text s) :=
  rfl

theorem writable_natural (n : Nat) : Writable (.natural n) :=
  isNumeral_toDigits n

theorem writable_optionalField {key : String} {value : Option String} {field : String × Json}
    (member : field ∈ optionalField key value) : Writable field.2 := by
  cases value with
  | none => cases member
  | some s =>
      rw [List.mem_singleton.mp member]
      exact writable_text s

end DocPipeline.Json
