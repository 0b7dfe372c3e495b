import DocPipeline.Proofs.Except
import DocPipeline.Yaml.Decode
import Mathlib.Data.List.Forall2

/-! Shapes of nodes in which nothing has a tag or an anchor. A record is read exactly when its keys
are scalars and the values under each key that it knows fill a slot; neither their order nor any
other entry matters.
-/

namespace DocPipeline.Yaml

-----------------------------------------------------------------------------------------
-- Nodes
-----------------------------------------------------------------------------------------

namespace Node

variable {ρ : Type}

/-- Nothing in the node has a tag or an anchor, and nothing stands for another node. -/
inductive IsBare : Node ρ → Prop
  | scalar (s : String) (style : Style) (mark : Mark) : IsBare (.scalar bare s style mark)
  | sequence {items : List (Node ρ)} (mark : Mark) (each : ∀ item ∈ items, IsBare item)
    : IsBare (.sequence bare items mark)
  | mapping {entries : List (Node ρ × Node ρ)} (mark : Mark)
    (keys : ∀ entry ∈ entries, IsBare entry.1) (values : ∀ entry ∈ entries, IsBare entry.2)
    : IsBare (.mapping bare entries mark)

/-- The text of a scalar, whatever its style. -/
def text? : Node ρ → Option String
  | .scalar _ s _ _ => some s
  | _ => none

/-- The plain scalars that spell nothing. -/
def spellsNothing : Node ρ → Bool
  | .scalar _ s .plain _ => ["", "~", "null", "Null", "NULL"].contains s
  | _ => false

/-- The text of a scalar, or none where it spells nothing. -/
def optional? (node : Node ρ) : Option (Option String) :=
  node.text?.map fun s => if node.spellsNothing then none else some s

/-- The items of a sequence, of which there are none where a node is left out. -/
def items? : Node ρ → Option (List (Node ρ))
  | .sequence _ items _ => some items
  | .scalar _ "" .plain _ => some []
  | _ => none

/-- The entries of a mapping, of which there are none where a node is left out. -/
def entries? : Node ρ → Option (List (Node ρ × Node ρ))
  | .mapping _ entries _ => some entries
  | .scalar _ "" .plain _ => some []
  | _ => none

/-- All keys are scalars. -/
def ScalarKeys (entries : List (Node ρ × Node ρ)) : Prop :=
  ∀ entry ∈ entries, ∃ key, entry.1.text? = some key

/-- The values under a key, in their order. -/
def valuesOf (entries : List (Node ρ × Node ρ)) (key : String) : List (Node ρ) :=
  (entries.filter (·.1.text? = some key)).map (·.2)

/-- Under a key there is one value, a scalar with this text. -/
def HoldsText (entries : List (Node ρ × Node ρ)) (key s : String) : Prop :=
  ∃ value, valuesOf entries key = [value] ∧ value.text? = some s

/-- Under a key there is at most one value, a scalar with this text or without one. -/
def HoldsOptional (entries : List (Node ρ × Node ρ)) (key : String) (s : Option String) : Prop :=
  valuesOf entries key = [] ∧ s = none
    ∨ ∃ value, valuesOf entries key = [value] ∧ value.optional? = some s

variable {node : Node ρ} {entries : List (Node ρ × Node ρ)}

theorem IsBare.of_items?_eq_some {items : List (Node ρ)} (bare : node.IsBare)
    (found : node.items? = some items) : ∀ item ∈ items, item.IsBare := by
  cases bare with
  | sequence mark each => exact Option.some.inj found ▸ each
  | mapping => cases found
  | scalar s style mark =>
      unfold items? at found
      split at found
      · next other => cases other
      · cases found
        exact List.forall_mem_nil _
      · cases found

theorem IsBare.of_entries?_eq_some (bare : node.IsBare) (found : node.entries? = some entries)
    : (∀ entry ∈ entries, entry.1.IsBare) ∧ ∀ entry ∈ entries, entry.2.IsBare := by
  cases bare with
  | mapping mark keys values => exact Option.some.inj found ▸ ⟨keys, values⟩
  | sequence => cases found
  | scalar s style mark =>
      unfold entries? at found
      split at found
      · next other => cases other
      · cases found
        exact ⟨List.forall_mem_nil _, List.forall_mem_nil _⟩
      · cases found

theorem valuesOf_cons {key value : Node ρ} {name : String} (named : key.text? = some name)
    : valuesOf ((key, value) :: entries)
      = fun known => (if known = name then [value] else []) ++ valuesOf entries known := by
  funext known
  unfold valuesOf
  by_cases same : known = name
  · simp [named, same]
  · have other : name ≠ known := fun equal => same equal.symm
    simp [named, same, other]

/-- Values stand in a mapping, since a node that is left out has none. -/
theorem eq_mapping_of_valuesOf {key : String} {value : Node ρ}
    (found : node.entries? = some entries) (holds : valuesOf entries key = [value])
    : ∃ properties mark, node = .mapping properties entries mark := by
  unfold entries? at found
  split at found
  · next properties _ mark =>
      obtain rfl := Option.some.inj found
      exact ⟨properties, mark, rfl⟩
  · obtain rfl := Option.some.inj found
    cases holds
  · cases found

/-- Items stand in a sequence, since a node that is left out has none. -/
theorem eq_sequence_of_items? {items : List (Node ρ)} (found : node.items? = some items)
    (nonempty : items ≠ []) : ∃ properties mark, node = .sequence properties items mark := by
  unfold items? at found
  split at found
  · next properties _ mark =>
      obtain rfl := Option.some.inj found
      exact ⟨properties, mark, rfl⟩
  · exact (nonempty (Option.some.inj found).symm).elim
  · cases found

end Node

-----------------------------------------------------------------------------------------
-- Texts and lists
-----------------------------------------------------------------------------------------

namespace Decode

variable {document : Document} {path : Path} {node : Node Nat}

theorem resolve_of_isBare (bare : node.IsBare) : document.resolve node = node := by
  cases bare <;> rfl

/-- The place of an error is no matter where there is none. -/
theorem placed_eq_ok_iff {α : Type} {mark : Mark} {result : Except Misfit α} {value : α}
    : placed path mark result = .ok value ↔ result = .ok value :=
  Except.mapError_eq_ok_iff

theorem textAs_eq_ok_iff {expected s : String} (bare : node.IsBare)
    : textAs expected document path node = .ok s ↔ node.text? = some s := by
  unfold textAs
  rw [resolve_of_isBare bare, placed_eq_ok_iff]
  cases bare <;> simp [Node.text?]

theorem text_eq_ok_iff {s : String} (bare : node.IsBare)
    : text document path node = .ok s ↔ node.text? = some s :=
  textAs_eq_ok_iff bare

/-- The spellings of nothing, the empty text among them. -/
theorem isEmpty_or_isNull (s : String)
    : (s.isEmpty || Meaning.isNull s) = ["", "~", "null", "Null", "NULL"].contains s := by
  rw [Bool.eq_iff_iff]
  simp only [Meaning.isNull, Bool.or_eq_true, String.isEmpty_iff, beq_iff_eq,
    List.contains_eq_mem, decide_eq_true_eq, List.mem_cons, List.not_mem_nil, or_false]
  tauto

theorem optionalText_eq_ok_iff {value : Option String} (bare : node.IsBare)
    : optionalText document path node = .ok value ↔ node.optional? = some value := by
  unfold optionalText
  rw [resolve_of_isBare bare]
  cases bare with
  | sequence mark | mapping mark =>
      change (placed path mark (.error _)).map some = _ ↔ _
      simp [Node.optional?, Node.text?, placed, Except.map]
  | scalar s style mark =>
      cases style with
      | quoted | block =>
          change Except.ok (some s) = _ ↔ _
          simp [Node.optional?, Node.text?, Node.spellsNothing]
      | plain =>
          change (if (s.isEmpty || Meaning.isNull s) = true then Except.ok none
            else Except.ok (some s)) = _ ↔ _
          rw [isEmpty_or_isNull]
          simp only [Node.optional?, Node.text?, Node.spellsNothing, Option.map_some]
          by_cases nothing : ["", "~", "null", "Null", "NULL"].contains s = true
          · simp only [nothing, if_true, Except.ok.injEq, Option.some.injEq]
          · simp only [nothing, Bool.false_eq_true, if_false, Except.ok.injEq, Option.some.injEq]

/-- Items are read exactly when each of them is, by induction on the items. -/
theorem items_eq_ok_iff {α : Type} {read : Path → Node Nat → Except Misfit α}
    {Reads : Node Nat → α → Prop}
    (each : ∀ path node value, node.IsBare → (read path node = .ok value ↔ Reads node value))
    {nodes : List (Node Nat)} {values : List α} (index : Nat) (bare : ∀ node ∈ nodes, node.IsBare)
    : items read path index nodes = .ok values ↔ List.Forall₂ Reads nodes values := by
  induction nodes generalizing values index with
  | nil => simp [items, eq_comm]
  | cons node nodes ih =>
      rw [List.forall_mem_cons] at bare
      simp only [items, Except.bind_eq_ok_iff, each _ _ _ bare.1, ih (index + 1) bare.2,
        List.forall₂_cons_left_iff]
      constructor
      · rintro ⟨value, reads, values, others, same⟩
        exact ⟨value, values, reads, others, (Except.ok.inj same).symm⟩
      · rintro ⟨value, values, reads, others, rfl⟩
        exact ⟨value, reads, values, others, rfl⟩

theorem list_eq_ok_iff {α : Type} {read : Path → Node Nat → Except Misfit α}
    {Reads : Node Nat → α → Prop}
    (each : ∀ path node value, node.IsBare → (read path node = .ok value ↔ Reads node value))
    {values : List α} (bare : node.IsBare)
    : list read document path node = .ok values
      ↔ ∃ nodes, node.items? = some nodes ∧ List.Forall₂ Reads nodes values := by
  have goes : list read document path node = placed path node.mark
      (match node.items? with
        | some nodes => items read path 0 nodes
        | none => .error (unexpected node "a sequence")) := by
    unfold list
    rw [resolve_of_isBare bare]
    dsimp only
    split <;> simp_all [Node.items?, items]
  rw [goes, placed_eq_ok_iff]
  cases found : node.items? with
  | none => simp
  | some nodes => simp [items_eq_ok_iff each 0 (bare.of_items?_eq_some found)]

-----------------------------------------------------------------------------------------
-- Records
-----------------------------------------------------------------------------------------

/-- The values under a key fill its slot: a slot is filled once at most, and stays as it is without
a value.
-/
def Filled {α : Type} (Reads : Node Nat → α → Prop) (before : Option α) (values : List (Node Nat))
    (after : Option α) : Prop :=
  match values with
  | [] => before = after
  | [node] => before = none ∧ ∃ value, Reads node value ∧ after = some value
  | _ => False

variable {α σ : Type}

theorem filled_nil_iff {Reads : Node Nat → α → Prop} {before after : Option α}
    : Filled Reads before [] after ↔ before = after :=
  Iff.rfl

theorem filled_some_iff {Reads : Node Nat → α → Prop} {values : List (Node Nat)} {value : α}
    : Filled Reads none values (some value) ↔ ∃ node, values = [node] ∧ Reads node value := by
  match values with
  | [] => simp [Filled]
  | [node] => simp [Filled]
  | node :: other :: rest => simp [Filled]

/-- A slot that may stay empty holds what is read of one value, or nothing without a value. -/
theorem filled_join_iff {entries : List (Node Nat × Node Nat)} {key : String} {s : Option String}
    : (∃ after,
        Filled (fun node s => node.optional? = some s) none (Node.valuesOf entries key) after
        ∧ after.join = s)
      ↔ Node.HoldsOptional entries key s := by
  unfold Node.HoldsOptional
  match Node.valuesOf entries key with
  | [] => simp [Filled, eq_comm]
  | [node] => simp [Filled]
  | node :: other :: rest => simp [Filled]

theorem required_eq_ok_iff {key : String} {seen : Option α} {value : α}
    : required key seen = .ok value ↔ seen = some value := by
  cases seen <;> simp [required]

theorem filled_append_iff {Reads : Node Nat → α → Prop} {before after : Option α}
    {first second : List (Node Nat)}
    : Filled Reads before (first ++ second) after
      ↔ ∃ between, Filled Reads before first between ∧ Filled Reads between second after := by
  match first, second with
  | [], _ => simp [Filled]
  | [node], [] => simp [Filled]
  | [node], [other] => simp [Filled]
  | [node], other :: another :: rest => simp [Filled]
  | node :: other :: rest, _ => simp [Filled]

theorem once_eq_ok_iff {key : String} {seen after : Option α} {read : Except Misfit α}
    {Reads : Node Nat → α → Prop} (reads : ∀ value, read = .ok value ↔ Reads node value)
    : once key seen read = .ok after ↔ Filled Reads seen [node] after := by
  cases seen with
  | some _ => simp [once, Filled]
  | none =>
      simp only [once, Filled, ← reads]
      cases read <;> simp [Except.map, eq_comm]

theorem once_text_eq_ok_iff {key : String} {seen after : Option String} (bare : node.IsBare)
    : once key seen (text document path node) = .ok after
      ↔ Filled (fun node s => node.text? = some s) seen [node] after :=
  once_eq_ok_iff fun _ => text_eq_ok_iff bare

theorem once_optionalText_eq_ok_iff {key : String} {seen after : Option (Option String)}
    (bare : node.IsBare)
    : once key seen (optionalText document path node) = .ok after
      ↔ Filled (fun node s => node.optional? = some s) seen [node] after :=
  once_eq_ok_iff fun _ => optionalText_eq_ok_iff bare

/-- How a record takes its entries: it takes one into the slots of its key, and none or several as
they follow from that.
-/
structure Slots (take : σ → String → Path → Node Nat → Except Misfit σ)
    (Fills : σ → (String → List (Node Nat)) → σ → Prop) : Prop where
  nil : ∀ state next, Fills state (fun _ => []) next ↔ state = next
  append : ∀ state first second next,
    Fills state (fun key => first key ++ second key) next
      ↔ ∃ between, Fills state first between ∧ Fills between second next
  take : ∀ state name path node next, node.IsBare
    → (take state name path node = .ok next
        ↔ Fills state (fun key => if key = name then [node] else []) next)

variable {take : σ → String → Path → Node Nat → Except Misfit σ}
  {Fills : σ → (String → List (Node Nat)) → σ → Prop}

/-- Entries are taken exactly when their keys are scalars and their values fill the slots; by
induction on the entries.
-/
theorem Slots.entries_eq_ok_iff (slots : Slots take Fills)
    {pairs : List (Node Nat × Node Nat)} {state final : σ}
    (keys : ∀ entry ∈ pairs, entry.1.IsBare) (values : ∀ entry ∈ pairs, entry.2.IsBare)
    : entries take document path state pairs = .ok final
      ↔ Node.ScalarKeys pairs ∧ Fills state (Node.valuesOf pairs) final := by
  induction pairs generalizing state with
  | nil =>
      have nothing : Node.valuesOf ([] : List (Node Nat × Node Nat)) = fun _ => [] := rfl
      rw [nothing, slots.nil]
      simp [entries, Node.ScalarKeys]
  | cons pair pairs ih =>
      obtain ⟨key, value⟩ := pair
      rw [List.forall_mem_cons] at keys values
      have goes : Decode.entries take document path state ((key, value) :: pairs) = .ok final
          ↔ ∃ name, key.text? = some name ∧ ∃ next,
              Fills state (fun known => if known = name then [value] else []) next
              ∧ Node.ScalarKeys pairs ∧ Fills next (Node.valuesOf pairs) final := by
        simp only [entries, Except.bind_eq_ok_iff, textAs_eq_ok_iff keys.1,
          slots.take _ _ _ _ _ values.1, ih keys.2 values.2]
      rw [goes]
      constructor
      · rintro ⟨name, named, next, fills, scalars, rest⟩
        refine ⟨List.forall_mem_cons.mpr ⟨⟨name, named⟩, scalars⟩, ?_⟩
        rw [Node.valuesOf_cons named, slots.append]
        exact ⟨next, fills, rest⟩
      · rintro ⟨scalars, fills⟩
        obtain ⟨⟨name, named⟩, scalars⟩ := List.forall_mem_cons.mp scalars
        rw [Node.valuesOf_cons named, slots.append] at fills
        obtain ⟨next, fills, rest⟩ := fills
        exact ⟨name, named, next, fills, scalars, rest⟩

/-- A record is read exactly when its entries fill the slots and these can be put together. -/
theorem Slots.record_eq_ok_iff (slots : Slots take Fills) {expected : String} {initial : σ}
    {finish : σ → Except Misfit α} {value : α} (bare : node.IsBare)
    : record expected initial take finish document path node = .ok value
      ↔ ∃ pairs final, node.entries? = some pairs ∧ Node.ScalarKeys pairs
          ∧ Fills initial (Node.valuesOf pairs) final ∧ finish final = .ok value := by
  have goes : record expected initial take finish document path node = placed path node.mark
      (match node.entries? with
        | some pairs => entries take document path initial pairs >>= finish
        | none => .error (unexpected node expected)) := by
    unfold record
    rw [resolve_of_isBare bare]
    dsimp only
    split <;> simp_all [Node.entries?, entries, Except.ok_bind]
  rw [goes, placed_eq_ok_iff]
  cases found : node.entries? with
  | none => simp
  | some pairs =>
      obtain ⟨keys, values⟩ := bare.of_entries?_eq_some found
      simp [Except.bind_eq_ok_iff, slots.entries_eq_ok_iff keys values, and_assoc]

end Decode
end DocPipeline.Yaml
