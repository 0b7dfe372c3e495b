import DocPipeline.Proofs.Yaml.Parse
import DocPipeline.Yaml.Decode

/-! Values read from nodes that spell trees. Texts are read back as they are, also where they would
mean something else without quotes; lists and records are read part by part.
-/

namespace DocPipeline.Yaml

/-- A text that is written plainly is neither empty nor a spelling of nothing. -/
theorem meaning_of_plain {s : String} (plain : Scanner.styleOf s = .plain)
    : (s.isEmpty || Meaning.isNull s) = false := by
  have form : Writer.formOf s = .plain := by
    unfold Scanner.styleOf at plain
    split at plain
    next form => exact form
    all_goals cases plain
  have clear : Meaning.ofText s = .text := by
    have fits := formOf_fits s
    rw [form] at fits
    have certain := fits.1
    simp only [Writer.isAmbiguous, Bool.or_eq_false_iff, bne_eq_false_iff_eq] at certain
    exact certain.1
  cases nothing : s.isEmpty || Meaning.isNull s with
  | false => rfl
  | true =>
      unfold Meaning.ofText at clear
      dsimp only at clear
      rw [nothing, if_pos rfl] at clear
      cases clear

namespace Decode

variable {document : Document} {path : Path} {node : Node Nat} {s : String}

theorem text_of_spells (spells : node.Spells (.text s)) : text document path node = .ok s := by
  cases spells
  rfl

/-- A text that is there is read as one, also if it is empty or looks like nothing. -/
theorem optionalText_of_spells (spells : node.Spells (.text s))
    : optionalText document path node = .ok (some s) := by
  cases spells with
  | text s mark =>
      cases style : Scanner.styleOf s with
      | plain =>
          change (if (s.isEmpty || Meaning.isNull s) = true then Except.ok none else _) = _
          rw [meaning_of_plain style, if_neg Bool.false_ne_true]
          rfl
      | quoted => rfl
      | block => rfl

/-- Items that are read one by one are read as a list; by induction on the items. -/
theorem items_of_spells {α : Type} {read : Path → Node Nat → Except Misfit α} {tree : α → Tree}
    (each : ∀ path node value, node.Spells (tree value) → read path node = .ok value)
    {values : List α} {nodes : List (Node Nat)} (index : Nat)
    (spells : Node.SpellsItems nodes (values.map tree))
    : items read path index nodes = .ok values := by
  induction values generalizing nodes index with
  | nil =>
      cases spells
      rfl
  | cons value values ih =>
      cases spells with
      | cons head tail =>
          rw [items, each _ _ value head, Except.ok_bind, ih (index + 1) tail]
          rfl

theorem list_of_spells {α : Type} {read : Path → Node Nat → Except Misfit α} {tree : α → Tree}
    (each : ∀ path node value, node.Spells (tree value) → read path node = .ok value)
    {values : List α} (spells : node.Spells (.list (values.map tree)))
    : list read document path node = .ok values := by
  cases spells with
  | list mark inner =>
      change placed path mark (items read path 0 _) = _
      rw [items_of_spells each 0 inner]
      rfl

/-- Nodes that spell these fields take one state to the other. -/
def Takes {σ : Type} (take : σ → String → Path → Node Nat → Except Misfit σ) (path : Path)
    : σ → List (String × Tree) → σ → Prop
  | state, [], final => state = final
  | state, (key, tree) :: fields, final =>
    ∃ next, (∀ node, node.Spells tree → take state key (.field path key) node = .ok next)
      ∧ Takes take path next fields final

variable {σ α : Type} {take : σ → String → Path → Node Nat → Except Misfit σ}

theorem Takes.append {first second : List (String × Tree)} {state middle final : σ}
    (before : Takes take path state first middle) (after : Takes take path middle second final)
    : Takes take path state (first ++ second) final := by
  induction first generalizing state with
  | nil =>
      obtain rfl : state = middle := before
      exact after
  | cons field first ih =>
      obtain ⟨next, step, rest⟩ := before
      exact ⟨next, step, ih rest⟩

theorem entries_of_takes {entries : List (Node Nat × Node Nat)} {fields : List (String × Tree)}
    {state final : σ} (takes : Takes take path state fields final)
    (spells : Node.SpellsFields entries fields)
    : Decode.entries take document path state entries = .ok final := by
  induction fields generalizing state entries with
  | nil =>
      cases spells
      exact congrArg Except.ok takes
  | cons field fields ih =>
      cases spells with
      | cons key mark value tail =>
          obtain ⟨next, step, rest⟩ := takes
          change (take state key (.field path key) _ >>= fun state =>
            Decode.entries take document path state _) = _
          rw [step _ value]
          exact ih rest tail

/-- A record is read when its fields, taken in their order, give what is put together. -/
theorem record_of_takes {expected : String} {initial final : σ} {finish : σ → Except Misfit α}
    {value : α} {fields : List (String × Tree)} (takes : Takes take path initial fields final)
    (done : finish final = .ok value) (spells : node.Spells (.record fields))
    : record expected initial take finish document path node = .ok value := by
  cases spells with
  | record mark each =>
      change placed path mark (Decode.entries take document path initial _ >>= finish) = _
      rw [entries_of_takes takes each]
      exact congrArg (placed path mark) done

end Decode
end DocPipeline.Yaml
