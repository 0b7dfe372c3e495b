import DocPipeline.Graph.Yaml
import DocPipeline.Proofs.Yaml.Shape

/-! Which documents describe a graph. -/

namespace DocPipeline

open Yaml Yaml.Node Yaml.Decode

variable {ρ : Type} {document : Yaml.Document} {path : Yaml.Path} {node : Node Nat}

-----------------------------------------------------------------------------------------
-- Parameters
-----------------------------------------------------------------------------------------

namespace Params

/-- The node describes the parameters: a mapping with each of the three texts once. -/
inductive Described : Node ρ → Params → Prop
  | mapping {properties : Properties ρ} {entries : List (Node ρ × Node ρ)} {mark : Mark}
    {params : Params} (keys : ScalarKeys entries)
    (model : HoldsText entries "model_name" params.model)
    (key : HoldsText entries "key" params.key)
    (prompt : HoldsText entries "system_prompt" params.prompt)
    : Described (.mapping properties entries mark) params

/-- The values under the three keys fill the parts of a draft. -/
def Draft.Fills (before : Draft) (values : String → List (Node Nat)) (after : Draft) : Prop :=
  Filled (fun node s => node.text? = some s) before.model (values "model_name") after.model
  ∧ Filled (fun node s => node.text? = some s) before.key (values "key") after.key
  ∧ Filled (fun node s => node.text? = some s) before.prompt (values "system_prompt")
      after.prompt

theorem Draft.slots (document : Yaml.Document) : Slots (Draft.take document) Draft.Fills where
  nil := by
    rintro ⟨_, _, _⟩ ⟨_, _, _⟩
    simp [Fills, Filled]
  append := by
    intro state first second next
    simp only [Fills, filled_append_iff]
    constructor
    · rintro ⟨⟨model, m, m'⟩, ⟨key, k, k'⟩, ⟨prompt, p, p'⟩⟩
      exact ⟨⟨model, key, prompt⟩, ⟨m, k, p⟩, m', k', p'⟩
    · rintro ⟨between, ⟨m, k, p⟩, m', k', p'⟩
      exact ⟨⟨_, m, m'⟩, ⟨_, k, k'⟩, ⟨_, p, p'⟩⟩
  take := by
    intro state name path node next bare
    unfold Draft.take
    rcases state with ⟨_, _, _⟩
    rcases next with ⟨_, _, _⟩
    split
    · simp [Fills, pure, Except.pure, Except.bind_eq_ok_iff, once_text_eq_ok_iff bare,
        filled_nil_iff]
    · simp [Fills, pure, Except.pure, Except.bind_eq_ok_iff, once_text_eq_ok_iff bare,
        filled_nil_iff]
      tauto
    · simp [Fills, pure, Except.pure, Except.bind_eq_ok_iff, once_text_eq_ok_iff bare,
        filled_nil_iff]
      tauto
    · next model key prompt =>
        simp [Fills, pure, Except.pure, filled_nil_iff, Ne.symm model, Ne.symm key,
          Ne.symm prompt]

theorem Draft.finish_eq_ok_iff {draft : Draft} {params : Params}
    : draft.finish = .ok params
      ↔ draft.model = some params.model ∧ draft.key = some params.key
        ∧ draft.prompt = some params.prompt := by
  obtain ⟨model, key, prompt⟩ := params
  simp [Draft.finish, Except.bind_eq_ok_iff, required_eq_ok_iff, pure, Except.pure]

theorem described_iff {node : Node ρ} {params : Params}
    : Described node params
      ↔ ∃ entries, node.entries? = some entries ∧ ScalarKeys entries
          ∧ HoldsText entries "model_name" params.model ∧ HoldsText entries "key" params.key
          ∧ HoldsText entries "system_prompt" params.prompt := by
  constructor
  · rintro ⟨keys, model, key, prompt⟩
    exact ⟨_, rfl, keys, model, key, prompt⟩
  · rintro ⟨entries, found, keys, model, key, prompt⟩
    have ⟨_, only, _⟩ := model
    obtain ⟨properties, mark, rfl⟩ := eq_mapping_of_valuesOf found only
    exact .mapping keys model key prompt

/-- Parameters are read exactly from the nodes that describe them. -/
theorem ofNode_eq_ok_iff {params : Params} (bare : node.IsBare)
    : ofNode document path node = .ok params ↔ Described node params := by
  unfold ofNode
  rw [(Draft.slots document).record_eq_ok_iff bare, described_iff]
  constructor
  · rintro ⟨entries, draft, found, keys, ⟨model, key, prompt⟩, finished⟩
    obtain ⟨hasModel, hasKey, hasPrompt⟩ := Draft.finish_eq_ok_iff.mp finished
    rw [hasModel, filled_some_iff] at model
    rw [hasKey, filled_some_iff] at key
    rw [hasPrompt, filled_some_iff] at prompt
    exact ⟨entries, found, keys, model, key, prompt⟩
  · rintro ⟨entries, found, keys, model, key, prompt⟩
    exact ⟨entries, ⟨some params.model, some params.key, some params.prompt⟩, found, keys,
      ⟨filled_some_iff.mpr model, filled_some_iff.mpr key, filled_some_iff.mpr prompt⟩, rfl⟩

end Params

-----------------------------------------------------------------------------------------
-- Policies
-----------------------------------------------------------------------------------------

namespace Policy

/-- The node describes the policy: a mapping with its two texts and its parameters once each, and
with its source once at most.
-/
inductive Described : Node ρ → Policy → Prop
  | mapping {properties : Properties ρ} {entries : List (Node ρ × Node ρ)} {mark : Mark}
    {policy : Policy} {inner : Node ρ} (keys : ScalarKeys entries)
    (extractor : HoldsText entries "extractor" policy.extractor)
    (name : HoldsText entries "name" policy.name)
    (only : valuesOf entries "input_params" = [inner])
    (params : Params.Described inner policy.params)
    (source : HoldsOptional entries "content_source" policy.source)
    : Described (.mapping properties entries mark) policy

/-- The values under the four keys fill the parts of a draft. -/
def Draft.Fills (before : Draft) (values : String → List (Node Nat)) (after : Draft) : Prop :=
  Filled (fun node s => node.text? = some s) before.extractor (values "extractor")
    after.extractor
  ∧ Filled (fun node s => node.text? = some s) before.name (values "name") after.name
  ∧ Filled Params.Described before.params (values "input_params") after.params
  ∧ Filled (fun node s => node.optional? = some s) before.source (values "content_source")
      after.source

theorem Draft.slots (document : Yaml.Document) : Slots (Draft.take document) Draft.Fills where
  nil := by
    rintro ⟨_, _, _, _⟩ ⟨_, _, _, _⟩
    simp [Fills, Filled]
  append := by
    intro state first second next
    simp only [Fills, filled_append_iff]
    constructor
    · rintro ⟨⟨extractor, e, e'⟩, ⟨name, n, n'⟩, ⟨params, p, p'⟩, ⟨source, s, s'⟩⟩
      exact ⟨⟨extractor, name, params, source⟩, ⟨e, n, p, s⟩, e', n', p', s'⟩
    · rintro ⟨between, ⟨e, n, p, s⟩, e', n', p', s'⟩
      exact ⟨⟨_, e, e'⟩, ⟨_, n, n'⟩, ⟨_, p, p'⟩, ⟨_, s, s'⟩⟩
  take := by
    intro state name path node next bare
    unfold Draft.take
    rcases state with ⟨_, _, _, _⟩
    rcases next with ⟨_, _, _, _⟩
    have params {seen after : Option Params} (key : String)
        : once key seen (Params.ofNode document path node) = .ok after
          ↔ Filled Params.Described seen [node] after :=
      once_eq_ok_iff fun _ => Params.ofNode_eq_ok_iff bare
    split
    · simp [Fills, pure, Except.pure, Except.bind_eq_ok_iff, once_text_eq_ok_iff bare,
        filled_nil_iff]
    · simp [Fills, pure, Except.pure, Except.bind_eq_ok_iff, once_text_eq_ok_iff bare,
        filled_nil_iff]
      tauto
    · simp [Fills, pure, Except.pure, Except.bind_eq_ok_iff, params, filled_nil_iff]
      tauto
    · simp [Fills, pure, Except.pure, Except.bind_eq_ok_iff, once_optionalText_eq_ok_iff bare,
        filled_nil_iff]
      tauto
    · next extractor name params source =>
        simp [Fills, pure, Except.pure, filled_nil_iff, Ne.symm extractor, Ne.symm name,
          Ne.symm params, Ne.symm source]

theorem Draft.finish_eq_ok_iff {draft : Draft} {policy : Policy}
    : draft.finish = .ok policy
      ↔ draft.extractor = some policy.extractor ∧ draft.name = some policy.name
        ∧ draft.params = some policy.params ∧ draft.source.join = policy.source := by
  obtain ⟨extractor, name, params, source⟩ := policy
  simp [Draft.finish, Except.bind_eq_ok_iff, required_eq_ok_iff, pure, Except.pure]

theorem described_iff {node : Node ρ} {policy : Policy}
    : Described node policy
      ↔ ∃ entries, node.entries? = some entries ∧ ScalarKeys entries
          ∧ HoldsText entries "extractor" policy.extractor ∧ HoldsText entries "name" policy.name
          ∧ (∃ inner, valuesOf entries "input_params" = [inner]
              ∧ Params.Described inner policy.params)
          ∧ HoldsOptional entries "content_source" policy.source := by
  constructor
  · rintro ⟨keys, extractor, name, only, params, source⟩
    exact ⟨_, rfl, keys, extractor, name, ⟨_, only, params⟩, source⟩
  · rintro ⟨entries, found, keys, extractor, name, ⟨inner, only, params⟩, source⟩
    obtain ⟨properties, mark, rfl⟩ := eq_mapping_of_valuesOf found only
    exact .mapping keys extractor name only params source

/-- Policies are read exactly from the nodes that describe them. -/
theorem ofNode_eq_ok_iff {policy : Policy} (bare : node.IsBare)
    : ofNode document path node = .ok policy ↔ Described node policy := by
  unfold ofNode
  rw [(Draft.slots document).record_eq_ok_iff bare, described_iff]
  constructor
  · rintro ⟨entries, draft, found, keys, ⟨extractor, name, params, source⟩, finished⟩
    obtain ⟨hasExtractor, hasName, hasParams, hasSource⟩ := Draft.finish_eq_ok_iff.mp finished
    rw [hasExtractor, filled_some_iff] at extractor
    rw [hasName, filled_some_iff] at name
    rw [hasParams, filled_some_iff] at params
    exact ⟨entries, found, keys, extractor, name, params,
      filled_join_iff.mp ⟨_, source, hasSource⟩⟩
  · rintro ⟨entries, found, keys, extractor, name, params, source⟩
    obtain ⟨written, source, joined⟩ := filled_join_iff.mpr source
    exact ⟨entries, ⟨some policy.extractor, some policy.name, some policy.params, written⟩,
      found, keys,
      ⟨filled_some_iff.mpr extractor, filled_some_iff.mpr name, filled_some_iff.mpr params,
        source⟩,
      Draft.finish_eq_ok_iff.mpr ⟨rfl, rfl, rfl, joined⟩⟩

end Policy

-----------------------------------------------------------------------------------------
-- Graphs
-----------------------------------------------------------------------------------------

namespace Graph

/-- The node describes the graph: a mapping with its name and the sequence of its policies once
each, and with its description once at most.
-/
inductive Described : Node ρ → Graph → Prop
  | mapping {properties inner : Properties ρ} {entries : List (Node ρ × Node ρ)}
    {mark start : Mark} {graph : Graph} {items : List (Node ρ)} (keys : ScalarKeys entries)
    (name : HoldsText entries "name" graph.name)
    (description : HoldsOptional entries "description" graph.description)
    (only : valuesOf entries "extraction_policies" = [.sequence inner items start])
    (policies : List.Forall₂ Policy.Described items graph.policies)
    : Described (.mapping properties entries mark) graph

/-- The node lists the policies, of which there are none where it is left out. -/
def Lists (node : Node ρ) (policies : List Policy) : Prop :=
  ∃ items, node.items? = some items ∧ List.Forall₂ Policy.Described items policies

/-- The values under the three keys fill the parts of a draft. -/
def Draft.Fills (before : Draft) (values : String → List (Node Nat)) (after : Draft) : Prop :=
  Filled (fun node s => node.text? = some s) before.name (values "name") after.name
  ∧ Filled (fun node s => node.optional? = some s) before.description (values "description")
      after.description
  ∧ Filled Lists before.policies (values "extraction_policies") after.policies

theorem Draft.slots (document : Yaml.Document) : Slots (Draft.take document) Draft.Fills where
  nil := by
    rintro ⟨_, _, _⟩ ⟨_, _, _⟩
    simp [Fills, Filled]
  append := by
    intro state first second next
    simp only [Fills, filled_append_iff]
    constructor
    · rintro ⟨⟨name, n, n'⟩, ⟨description, d, d'⟩, ⟨policies, p, p'⟩⟩
      exact ⟨⟨name, description, policies⟩, ⟨n, d, p⟩, n', d', p'⟩
    · rintro ⟨between, ⟨n, d, p⟩, n', d', p'⟩
      exact ⟨⟨_, n, n'⟩, ⟨_, d, d'⟩, ⟨_, p, p'⟩⟩
  take := by
    intro state name path node next bare
    unfold Draft.take
    rcases state with ⟨_, _, _⟩
    rcases next with ⟨_, _, _⟩
    have lists {seen after : Option (List Policy)} (key : String)
        : once key seen (list (Policy.ofNode document) document path node) = .ok after
          ↔ Filled Lists seen [node] after :=
      once_eq_ok_iff fun _ => list_eq_ok_iff (fun _ _ _ => Policy.ofNode_eq_ok_iff) bare
    split
    · simp [Fills, pure, Except.pure, Except.bind_eq_ok_iff, once_text_eq_ok_iff bare,
        filled_nil_iff]
    · simp [Fills, pure, Except.pure, Except.bind_eq_ok_iff, once_optionalText_eq_ok_iff bare,
        filled_nil_iff]
      tauto
    · simp [Fills, pure, Except.pure, Except.bind_eq_ok_iff, lists, filled_nil_iff]
      tauto
    · next name description policies =>
        simp [Fills, pure, Except.pure, filled_nil_iff, Ne.symm name, Ne.symm description,
          Ne.symm policies]

theorem Draft.finish_eq_ok_iff {draft : Draft} {graph : Graph}
    : draft.finish = .ok graph
      ↔ draft.name = some graph.name ∧ draft.policies = some graph.policies
        ∧ draft.description.join = graph.description := by
  obtain ⟨name, description, policies⟩ := graph
  simp [Draft.finish, Except.bind_eq_ok_iff, required_eq_ok_iff, pure, Except.pure]

/-- Graphs with policies, taken apart; a list that is left out has none. -/
theorem described_iff {node : Node ρ} {graph : Graph} (nonempty : graph.policies ≠ [])
    : Described node graph
      ↔ ∃ entries, node.entries? = some entries ∧ ScalarKeys entries
          ∧ HoldsText entries "name" graph.name
          ∧ HoldsOptional entries "description" graph.description
          ∧ ∃ value, valuesOf entries "extraction_policies" = [value]
              ∧ Lists value graph.policies := by
  constructor
  · rintro ⟨keys, name, description, only, policies⟩
    exact ⟨_, rfl, keys, name, description, _, only, _, rfl, policies⟩
  · rintro ⟨entries, found, keys, name, description, value, only, items, listed, policies⟩
    obtain ⟨properties, mark, rfl⟩ := eq_mapping_of_valuesOf found only
    obtain ⟨inner, start, rfl⟩ := eq_sequence_of_items? listed fun none =>
      nonempty (List.forall₂_nil_left_iff.mp (none ▸ policies))
    exact .mapping keys name description only policies

/-- Graphs with policies are read exactly from the documents that describe them. -/
theorem ofDocument_eq_ok_iff {graph : Graph} (bare : document.root.IsBare)
    (nonempty : graph.policies ≠ [])
    : ofDocument document = .ok graph ↔ Described document.root graph := by
  unfold ofDocument
  rw [(Draft.slots document).record_eq_ok_iff bare, described_iff nonempty]
  constructor
  · rintro ⟨entries, draft, found, keys, ⟨name, description, policies⟩, finished⟩
    obtain ⟨hasName, hasPolicies, hasDescription⟩ := Draft.finish_eq_ok_iff.mp finished
    rw [hasName, filled_some_iff] at name
    rw [hasPolicies, filled_some_iff] at policies
    exact ⟨entries, found, keys, name, filled_join_iff.mp ⟨_, description, hasDescription⟩,
      policies⟩
  · rintro ⟨entries, found, keys, name, description, policies⟩
    obtain ⟨written, description, joined⟩ := filled_join_iff.mpr description
    exact ⟨entries, ⟨some graph.name, written, some graph.policies⟩, found, keys,
      ⟨filled_some_iff.mpr name, description, filled_some_iff.mpr policies⟩,
      Draft.finish_eq_ok_iff.mpr ⟨rfl, rfl, joined⟩⟩

end Graph
end DocPipeline
