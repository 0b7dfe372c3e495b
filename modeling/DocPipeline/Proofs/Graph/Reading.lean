import DocPipeline.Proofs.Graph.Rules
import DocPipeline.Proofs.Graph.Shape
import DocPipeline.Proofs.Yaml.Document
import DocPipeline.Proofs.Yaml.Variation

/-! Which texts are read as graphs. A text is accepted exactly if its document describes a graph
that keeps all rules, and which graph that is does not change if entries are added under other keys
or stand in another order, or if scalars are written in another style.
-/

namespace DocPipeline

open Yaml Yaml.Node

-----------------------------------------------------------------------------------------
-- Written nodes
-----------------------------------------------------------------------------------------

namespace Yaml.Node

mutual

/-- Nothing that is written has a tag or an anchor. -/
theorem Spells.isBare {ρ : Type} {node : Node ρ} {tree : Tree} (spells : Spells node tree)
    : node.IsBare := by
  cases spells with
  | text s mark => exact .scalar s _ mark
  | list mark each => exact .sequence mark each.isBare
  | record mark each => exact .mapping mark each.isBare.1 each.isBare.2
termination_by sizeOf tree

theorem SpellsItems.isBare {ρ : Type} {nodes : List (Node ρ)} {items : List Tree}
    (spells : SpellsItems nodes items) : ∀ node ∈ nodes, node.IsBare := by
  cases spells with
  | nil => exact List.forall_mem_nil _
  | cons head tail => exact List.forall_mem_cons.mpr ⟨head.isBare, tail.isBare⟩
termination_by sizeOf items

theorem SpellsFields.isBare {ρ : Type} {entries : List (Node ρ × Node ρ)}
    {fields : List (String × Tree)} (spells : SpellsFields entries fields)
    : (∀ entry ∈ entries, entry.1.IsBare) ∧ ∀ entry ∈ entries, entry.2.IsBare := by
  cases spells with
  | nil => exact ⟨List.forall_mem_nil _, List.forall_mem_nil _⟩
  | cons key mark value tail =>
      exact ⟨List.forall_mem_cons.mpr ⟨.scalar key _ mark, tail.isBare.1⟩,
        List.forall_mem_cons.mpr ⟨value.isBare, tail.isBare.2⟩⟩
termination_by sizeOf fields

end

end Yaml.Node

variable {ρ : Type} {node other : Node ρ}

-----------------------------------------------------------------------------------------
-- Nodes that describe the same
-----------------------------------------------------------------------------------------

namespace Params

/-- The keys of parameters. -/
def keys : List String := ["model_name", "key", "system_prompt"]

/-- Mappings with the same texts under the keys of parameters. -/
inductive Varies : Node ρ → Node ρ → Prop
  | mapping {properties others : Properties ρ} {entries rest : List (Node ρ × Node ρ)}
    {mark start : Mark}
    (vary : EntriesVary keys (fun _ value other => value.text? = other.text?) entries rest)
    : Varies (.mapping properties entries mark) (.mapping others rest start)

theorem Varies.described_iff {params : Params} (varies : Varies node other)
    : Described node params ↔ Described other params := by
  obtain ⟨vary⟩ := varies
  have holds (key s : String) (among : key ∈ keys) := vary.holdsText_iff key s among
    fun _ _ same => same
  have model := holds "model_name" params.model (by simp [keys])
  have key := holds "key" params.key (by simp [keys])
  have prompt := holds "system_prompt" params.prompt (by simp [keys])
  simp only [Params.described_iff, entries?, Option.some.injEq, exists_eq_left', model, key,
    prompt, vary.scalarKeys_iff]

end Params

namespace Policy

/-- The keys of a policy. -/
def keys : List String := ["extractor", "name", "input_params", "content_source"]

/-- Values under a key of a policy that come to the same. -/
def FieldVaries (key : String) (value other : Node ρ) : Prop :=
  if key = "input_params" then Params.Varies value other
  else if key = "content_source" then value.optional? = other.optional?
  else value.text? = other.text?

/-- Mappings with values that come to the same under the keys of a policy. -/
inductive Varies : Node ρ → Node ρ → Prop
  | mapping {properties others : Properties ρ} {entries rest : List (Node ρ × Node ρ)}
    {mark start : Mark} (vary : EntriesVary keys FieldVaries entries rest)
    : Varies (.mapping properties entries mark) (.mapping others rest start)

theorem Varies.described_iff {policy : Policy} (varies : Varies node other)
    : Described node policy ↔ Described other policy := by
  obtain ⟨vary⟩ := varies
  have extractor := vary.holdsText_iff "extractor" policy.extractor (by simp [keys])
    fun _ _ same => by simpa [FieldVaries] using same
  have name := vary.holdsText_iff "name" policy.name (by simp [keys])
    fun _ _ same => by simpa [FieldVaries] using same
  have source := vary.holdsOptional_iff "content_source" policy.source (by simp [keys])
    fun _ _ same => by simpa [FieldVaries] using same
  have params := vary.holds_iff "input_params" (Params.Described · policy.params) (by simp [keys])
    fun _ _ same => Params.Varies.described_iff (by simpa [FieldVaries] using same)
  simp only [Policy.described_iff, entries?, Option.some.injEq, exists_eq_left', extractor, name,
    source, params, vary.scalarKeys_iff]

end Policy

namespace Graph

/-- The keys of a graph. -/
def keys : List String := ["name", "description", "extraction_policies"]

/-- Sequences of policies that vary one by one. -/
inductive PoliciesVary : Node ρ → Node ρ → Prop
  | sequence {properties others : Properties ρ} {items rest : List (Node ρ)} {mark start : Mark}
    (each : List.Forall₂ Policy.Varies items rest)
    : PoliciesVary (.sequence properties items mark) (.sequence others rest start)

/-- Values under a key of a graph that come to the same. -/
def FieldVaries (key : String) (value other : Node ρ) : Prop :=
  if key = "extraction_policies" then PoliciesVary value other
  else if key = "description" then value.optional? = other.optional?
  else value.text? = other.text?

/-- Mappings with values that come to the same under the keys of a graph: there may be more entries
under other keys, with any values, and the entries may stand in another order.
-/
inductive Varies : Node ρ → Node ρ → Prop
  | mapping {properties others : Properties ρ} {entries rest : List (Node ρ × Node ρ)}
    {mark start : Mark} (vary : EntriesVary keys FieldVaries entries rest)
    : Varies (.mapping properties entries mark) (.mapping others rest start)

/-- Policies are read one by one, so by induction on the items. -/
theorem PoliciesVary.lists_iff {policies : List Policy} (varies : PoliciesVary node other)
    : Lists node policies ↔ Lists other policies := by
  obtain ⟨each⟩ := varies
  simp only [Lists, items?, Option.some.injEq, exists_eq_left']
  induction each generalizing policies with
  | nil => rfl
  | cons first _ ih => simp only [List.forall₂_cons_left_iff, first.described_iff, ih]

theorem Varies.described_iff {graph : Graph} (varies : Varies node other)
    (nonempty : graph.policies ≠ []) : Described node graph ↔ Described other graph := by
  obtain ⟨vary⟩ := varies
  have name := vary.holdsText_iff "name" graph.name (by simp [keys])
    fun _ _ same => by simpa [FieldVaries] using same
  have description := vary.holdsOptional_iff "description" graph.description (by simp [keys])
    fun _ _ same => by simpa [FieldVaries] using same
  have policies := vary.holds_iff "extraction_policies" (Lists · graph.policies) (by simp [keys])
    fun _ _ same => PoliciesVary.lists_iff (by simpa [FieldVaries] using same)
  simp only [Graph.described_iff nonempty, entries?, Option.some.injEq, exists_eq_left', name,
    description, policies, vary.scalarKeys_iff]

-----------------------------------------------------------------------------------------
-- Texts that are read
-----------------------------------------------------------------------------------------

section Texts

variable {text : String} {document : Yaml.Document}

/-- With a document, a text is read as the graph of the document, if that keeps the rules. -/
theorem ofYaml_of_document (spelled : Yaml.Document.ofText text = .ok document)
    : ofYaml text = (do
        let graph ← (ofDocument document).mapError fun misfit => .graphRefused misfit.message
        graph.validate.mapError Violation.failure
        return graph) := by
  rw [ofYaml, spelled]
  rfl

theorem ofYaml_eq_ok_iff {graph : Graph} (spelled : Yaml.Document.ofText text = .ok document)
    (bare : document.root.IsBare)
    : ofYaml text = .ok graph ↔ Described document.root graph ∧ graph.Valid := by
  rw [ofYaml_of_document spelled]
  simp only [Except.bind_eq_ok_iff, Except.mapError_eq_ok_iff]
  constructor
  · rintro ⟨found, read, _, checked, same⟩
    cases same
    have valid := validate_eq_ok_iff.mp checked
    exact ⟨(ofDocument_eq_ok_iff bare valid.nonempty).mp read, valid⟩
  · rintro ⟨described, valid⟩
    exact ⟨graph, (ofDocument_eq_ok_iff bare valid.nonempty).mpr described, (),
      validate_eq_ok_iff.mpr valid, rfl⟩

/-- A text with a document that is not read as a graph is refused with a message. -/
theorem exists_refusal_of_ofYaml {failure : Failure}
    (spelled : Yaml.Document.ofText text = .ok document) (failed : ofYaml text = .error failure)
    : ∃ message, failure = .graphRefused message := by
  rw [ofYaml_of_document spelled] at failed
  cases read : ofDocument document with
  | error misfit =>
      rw [read] at failed
      cases failed
      exact ⟨_, rfl⟩
  | ok graph =>
      rw [read, Except.ok_mapError, Except.ok_bind] at failed
      cases checked : graph.validate with
      | error violation =>
          rw [checked] at failed
          cases failed
          exact ⟨_, rfl⟩
      | ok _ =>
          rw [checked] at failed
          cases failed

end Texts

/-- A text whose document has neither tags nor anchors is read as a graph exactly if the document
describes that graph and the graph keeps all rules; every other such text is refused with a message.
Other texts whose documents come to the same are read as the same graph.
-/
theorem ofYaml_accepts_described {text : String} {document : Yaml.Document}
    (spelled : Yaml.Document.ofText text = .ok document) (bare : document.root.IsBare)
    : (∀ graph, ofYaml text = .ok graph ↔ Described document.root graph ∧ graph.Valid)
      ∧ (∀ failure, ofYaml text = .error failure → ∃ message, failure = .graphRefused message)
      ∧ ∀ another changed,
          Yaml.Document.ofText another = .ok changed
          → changed.root.IsBare
          → Varies document.root changed.root
          → ∀ graph, ofYaml text = .ok graph ↔ ofYaml another = .ok graph := by
  refine ⟨fun _ => ofYaml_eq_ok_iff spelled bare,
    fun _ => exists_refusal_of_ofYaml spelled, ?_⟩
  intro another changed spelledToo bareToo varies graph
  rw [ofYaml_eq_ok_iff spelled bare, ofYaml_eq_ok_iff spelledToo bareToo]
  exact and_congr_left fun valid => varies.described_iff valid.nonempty

-----------------------------------------------------------------------------------------
-- Fields in another order
-----------------------------------------------------------------------------------------

/-- The fields of a graph in an unusual order, behind one that is no field of a graph. -/
def shuffledFields : List (String × Yaml.Tree) :=
  [("extra", .list [.text "1"]),
    ("extraction_policies", .list [.record
      [("name", .text "p"),
        ("input_params", .record
          [("key", .text "k"), ("system_prompt", .text "~"), ("model_name", .text "m")]),
        ("extractor", .text "x")]]),
    ("name", .text "0123")]

/-- The graph of these fields. -/
def shuffled : Graph :=
  ⟨"0123", none, [⟨"x", "p", ⟨"m", "k", "~"⟩, none⟩]⟩

/-- The fields describe the graph, by taking their node apart. -/
theorem described_shuffled {node : Node ρ} (spells : node.Spells (.record shuffledFields))
    : Described node shuffled := by
  obtain _ | _ | ⟨mark, _ | ⟨_, _, extra, _ | ⟨_, _, policies, _ | ⟨_, _, name, _ | _⟩⟩⟩⟩ := spells
  obtain _ | ⟨start, _ | ⟨policy, _ | _⟩⟩ := policies
  obtain _ | _ | ⟨_, _ | ⟨_, _, policyName, _ | ⟨_, _, params, _ | ⟨_, _, extractor, _ | _⟩⟩⟩⟩ :=
    policy
  obtain _ | _ | ⟨_, _ | ⟨_, _, key, _ | ⟨_, _, prompt, _ | ⟨_, _, model, _ | _⟩⟩⟩⟩ := params
  cases name
  cases policyName
  cases extractor
  cases key
  cases prompt
  cases model
  refine .mapping (by simp [ScalarKeys, text?]) ⟨_, rfl, rfl⟩ (.inl ⟨rfl, rfl⟩) rfl (.cons ?_ .nil)
  refine .mapping (by simp [ScalarKeys, text?]) ⟨_, rfl, rfl⟩ ⟨_, rfl, rfl⟩ rfl ?_ (.inl ⟨rfl, rfl⟩)
  exact .mapping (by simp [ScalarKeys, text?]) ⟨_, rfl, rfl⟩ ⟨_, rfl, rfl⟩ ⟨_, rfl, rfl⟩

/-- The text of these fields is read as their graph: the order does not matter, the field that no
graph has is passed over, and what looks like a number or like nothing is a text.
-/
theorem ofYaml_accepts_described_shuffled
    : ∃ document,
        Yaml.Document.ofText (Writer.document shuffledFields) = .ok document
        ∧ document.root.IsBare
        ∧ Described document.root shuffled
        ∧ ofYaml (Writer.document shuffledFields) = .ok shuffled := by
  have keyed : Yaml.Tree.FieldsKeyed shuffledFields :=
    ⟨.of_all (by decide), ⟨trivial, trivial⟩, .of_all (by decide),
      ⟨⟨.of_all (by decide), trivial, .of_all (by decide),
        ⟨.of_all (by decide), trivial, .of_all (by decide), trivial, .of_all (by decide), trivial,
          trivial⟩,
        .of_all (by decide), trivial, trivial⟩, trivial⟩,
      .of_all (by decide), trivial, trivial⟩
  obtain ⟨document, spelled, spells⟩ := Yaml.Document.ofText_document keyed (by decide)
  have bare : document.root.IsBare := spells.isBare
  have described := described_shuffled spells
  have valid : shuffled.Valid := validate_eq_ok_iff.mp (by decide)
  exact ⟨document, spelled, bare, described,
    ((ofYaml_accepts_described spelled bare).1 shuffled).mpr ⟨described, valid⟩⟩

end Graph
end DocPipeline
