import DocPipeline.Proofs.Yaml.Shape

/-! Mappings with the same entries in another order, or among others. What a record holds under the
keys that it knows is the same in all of them.
-/

namespace DocPipeline.Yaml.Node

variable {ρ : Type}

/-- An entry with the same key as another, and with a value that varies as asked where the key is
known.
-/
def EntryVaries (known : List String) (Varies : String → Node ρ → Node ρ → Prop)
    (entry other : Node ρ × Node ρ)
    : Prop :=
  entry.1.text? = other.1.text?
  ∧ ∀ key ∈ known, entry.1.text? = some key → Varies key entry.2 other.2

/-- Entries with others in their place: each varies and may stand anywhere, and there may be more
under keys that are not known.
-/
def EntriesVary (known : List String) (Varies : String → Node ρ → Node ρ → Prop)
    (entries others : List (Node ρ × Node ρ))
    : Prop :=
  ∃ kept added, List.Forall₂ (EntryVaries known Varies) entries kept
    ∧ (∀ entry ∈ added, ∃ key, entry.1.text? = some key ∧ key ∉ known)
    ∧ others.Perm (kept ++ added)

variable {known : List String} {Varies : String → Node ρ → Node ρ → Prop} {key : String}
  {entries others : List (Node ρ × Node ρ)}

theorem scalarKeys_iff_of_forall₂ (vary : List.Forall₂ (EntryVaries known Varies) entries others)
    : ScalarKeys entries ↔ ScalarKeys others := by
  induction vary with
  | nil => rfl
  | cons first _ ih =>
      unfold ScalarKeys at ih ⊢
      rw [List.forall_mem_cons, List.forall_mem_cons, first.1, ih]

theorem valuesOf_of_forall₂ (vary : List.Forall₂ (EntryVaries known Varies) entries others)
    (among : key ∈ known)
    : List.Forall₂ (Varies key) (valuesOf entries key) (valuesOf others key) := by
  induction vary with
  | nil => exact .nil
  | @cons entry other entries others first _ ih =>
      obtain ⟨same, varies⟩ := first
      simp only [valuesOf, List.filter_cons, ← same] at ih ⊢
      by_cases named : entry.1.text? = some key
      · simp only [named, decide_true, if_true, List.map_cons]
        exact .cons (varies key among named) ih
      · simpa only [named, decide_false, Bool.false_eq_true, if_false] using ih

theorem valuesOf_perm (order : entries.Perm others) (key : String)
    : (valuesOf entries key).Perm (valuesOf others key) := by
  unfold valuesOf
  exact (order.filter _).map _

theorem valuesOf_append
    : valuesOf (entries ++ others) key = valuesOf entries key ++ valuesOf others key := by
  simp [valuesOf]

/-- There are no values under a key that no entry has. -/
theorem valuesOf_eq_nil
    (other : ∀ entry ∈ entries, ∃ name, entry.1.text? = some name ∧ name ≠ key)
    : valuesOf entries key = [] := by
  rw [valuesOf, List.map_eq_nil_iff, List.filter_eq_nil_iff]
  intro entry member
  obtain ⟨name, named, different⟩ := other entry member
  simp [named, different]

namespace EntriesVary

theorem scalarKeys_iff (vary : EntriesVary known Varies entries others)
    : ScalarKeys entries ↔ ScalarKeys others := by
  obtain ⟨kept, added, same, unknown, order⟩ := vary
  have scalars : ScalarKeys added := by
    intro entry member
    obtain ⟨key, named, _⟩ := unknown entry member
    exact ⟨key, named⟩
  rw [scalarKeys_iff_of_forall₂ same]
  unfold ScalarKeys at scalars ⊢
  simp only [order.mem_iff, List.forall_mem_append]
  exact ⟨fun scalar => ⟨scalar, scalars⟩, And.left⟩

/-- Under a known key there are as many values as before, each one varied. -/
theorem valuesOf (vary : EntriesVary known Varies entries others) (among : key ∈ known)
    : ∃ values, List.Forall₂ (Varies key) (Node.valuesOf entries key) values
        ∧ (Node.valuesOf others key).Perm values := by
  obtain ⟨kept, added, same, unknown, order⟩ := vary
  have nothing : Node.valuesOf added key = [] := by
    refine valuesOf_eq_nil fun entry member => ?_
    obtain ⟨name, named, fresh⟩ := unknown entry member
    exact ⟨name, named, fun equal => fresh (equal ▸ among)⟩
  refine ⟨Node.valuesOf kept key, valuesOf_of_forall₂ same among, ?_⟩
  have moved := valuesOf_perm order key
  rwa [valuesOf_append, nothing, List.append_nil] at moved

theorem valuesOf_eq_nil_iff (vary : EntriesVary known Varies entries others)
    (among : key ∈ known)
    : Node.valuesOf entries key = [] ↔ Node.valuesOf others key = [] := by
  obtain ⟨values, varied, order⟩ := vary.valuesOf among
  rw [← List.length_eq_zero_iff, ← List.length_eq_zero_iff, varied.length_eq, order.length_eq]

/-- There is one value under a known key exactly when there was, and what is read of it is the same
if no variation changes that.
-/
theorem holds_iff (vary : EntriesVary known Varies entries others) (key : String)
    (Holds : Node ρ → Prop) (among : key ∈ known)
    (same : ∀ value other, Varies key value other → (Holds value ↔ Holds other))
    : (∃ value, Node.valuesOf entries key = [value] ∧ Holds value)
      ↔ ∃ value, Node.valuesOf others key = [value] ∧ Holds value := by
  obtain ⟨values, varied, order⟩ := vary.valuesOf among
  constructor
  · rintro ⟨value, only, holds⟩
    rw [only] at varied
    obtain ⟨other, varies, rfl⟩ : ∃ other, Varies key value other ∧ values = [other] := by
      cases varied with
      | cons varies rest =>
          cases rest
          exact ⟨_, varies, rfl⟩
    exact ⟨other, order.eq_singleton, (same value other varies).mp holds⟩
  · rintro ⟨other, only, holds⟩
    rw [only] at order
    obtain rfl := order.singleton_eq
    obtain ⟨value, varies, only⟩
        : ∃ value, Varies key value other ∧ Node.valuesOf entries key = [value] := by
      generalize Node.valuesOf entries key = before at varied
      cases varied with
      | cons varies rest =>
          cases rest
          exact ⟨_, varies, rfl⟩
    exact ⟨value, only, (same value other varies).mpr holds⟩

theorem holdsText_iff (vary : EntriesVary known Varies entries others) (key s : String)
    (among : key ∈ known)
    (same : ∀ value other, Varies key value other → value.text? = other.text?)
    : HoldsText entries key s ↔ HoldsText others key s :=
  vary.holds_iff key (·.text? = some s) among
    fun value other varies => by rw [same value other varies]

theorem holdsOptional_iff (vary : EntriesVary known Varies entries others) (key : String)
    (s : Option String) (among : key ∈ known)
    (same : ∀ value other, Varies key value other → value.optional? = other.optional?)
    : HoldsOptional entries key s ↔ HoldsOptional others key s := by
  unfold HoldsOptional
  rw [vary.valuesOf_eq_nil_iff among, vary.holds_iff key (·.optional? = some s) among
    fun value other varies => by rw [same value other varies]]

end EntriesVary
end DocPipeline.Yaml.Node
