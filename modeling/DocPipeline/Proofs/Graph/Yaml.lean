import DocPipeline.Graph.Yaml
import DocPipeline.Proofs.Yaml.Decode
import DocPipeline.Proofs.Yaml.Document

/-! Graphs written as YAML and read again. A graph is read back field by field from the tree that
was written, whatever its texts are, and then has to keep the rules like any other.
-/

namespace DocPipeline

open Yaml

-----------------------------------------------------------------------------------------
-- The written tree
-----------------------------------------------------------------------------------------

theorem keyed_optionalField {key : String} (known : IsKey key.toList) (value : Option String)
    {fields : List (String × Yaml.Tree)} (others : Yaml.Tree.FieldsKeyed fields)
    : Yaml.Tree.FieldsKeyed (optionalField key value ++ fields) := by
  cases value with
  | none => exact others
  | some s => exact ⟨known, trivial, others⟩

theorem Params.keyed_tree (params : Params) : params.tree.Keyed :=
  ⟨.of_all (by decide), trivial, .of_all (by decide), trivial, .of_all (by decide), trivial,
    trivial⟩

theorem Policy.keyed_tree (policy : Policy) : policy.tree.Keyed := by
  have source : Yaml.Tree.FieldsKeyed (optionalField "content_source" policy.source ++ []) :=
    keyed_optionalField (.of_all (by decide)) policy.source trivial
  rw [List.append_nil] at source
  exact ⟨.of_all (by decide), trivial, .of_all (by decide), trivial, .of_all (by decide),
    policy.params.keyed_tree, source⟩

theorem Policy.keyed_trees (policies : List Policy)
    : Yaml.Tree.ItemsKeyed (policies.map Policy.tree) := by
  induction policies with
  | nil => trivial
  | cons policy policies ih => exact ⟨policy.keyed_tree, ih⟩

namespace Graph

/-- The fields of a graph. -/
def fields (graph : Graph) : List (String × Yaml.Tree) :=
  ("name", .text graph.name) :: (optionalField "description" graph.description
    ++ [("extraction_policies", .list (graph.policies.map Policy.tree))])

theorem toYaml_eq (graph : Graph) : graph.toYaml = Writer.document graph.fields := by
  rw [toYaml, fields, List.append_assoc]
  rfl

theorem keyed_fields (graph : Graph) : Yaml.Tree.FieldsKeyed graph.fields :=
  ⟨.of_all (by decide), trivial, keyed_optionalField (.of_all (by decide)) graph.description
    ⟨.of_all (by decide), Policy.keyed_trees graph.policies, trivial⟩⟩

end Graph

-----------------------------------------------------------------------------------------
-- Reading it back
-----------------------------------------------------------------------------------------

variable {document : Yaml.Document} {path : Path} {node : Node Nat}

theorem Params.ofNode_of_spells {params : Params} (spells : node.Spells params.tree)
    : Params.ofNode document path node = .ok params := by
  obtain ⟨model, key, prompt⟩ := params
  have takes : Decode.Takes (Draft.take document) path {}
      [("model_name", .text model), ("key", .text key), ("system_prompt", .text prompt)]
      ⟨some model, some key, some prompt⟩ := by
    refine ⟨⟨some model, none, none⟩, ?_, ⟨some model, some key, none⟩, ?_,
      ⟨some model, some key, some prompt⟩, ?_, rfl⟩
    all_goals
      intro node text
      simp only [Draft.take, Decode.once]
      rw [Decode.text_of_spells text]
      rfl
  exact Decode.record_of_takes takes rfl spells

theorem Policy.ofNode_of_spells {policy : Policy} (spells : node.Spells policy.tree)
    : Policy.ofNode document path node = .ok policy := by
  obtain ⟨extractor, name, params, source⟩ := policy
  have required : Decode.Takes (Draft.take document) path {}
      [("extractor", .text extractor), ("name", .text name), ("input_params", params.tree)]
      ⟨some extractor, some name, some params, none⟩ := by
    refine ⟨⟨some extractor, none, none, none⟩, ?_, ⟨some extractor, some name, none, none⟩, ?_,
      ⟨some extractor, some name, some params, none⟩, ?_, rfl⟩
    · intro node text
      simp only [Draft.take, Decode.once]
      rw [Decode.text_of_spells text]
      rfl
    · intro node text
      simp only [Draft.take, Decode.once]
      rw [Decode.text_of_spells text]
      rfl
    · intro node inner
      simp only [Draft.take, Decode.once]
      rw [Params.ofNode_of_spells inner]
      rfl
  have optional : Decode.Takes (Draft.take document) path
      ⟨some extractor, some name, some params, none⟩ (optionalField "content_source" source)
      ⟨some extractor, some name, some params, source.map some⟩ := by
    cases source with
    | none => rfl
    | some s =>
        refine ⟨⟨some extractor, some name, some params, some (some s)⟩, ?_, rfl⟩
        intro node text
        simp only [Draft.take, Decode.once]
        rw [Decode.optionalText_of_spells text]
        rfl
  refine Decode.record_of_takes (required.append optional) ?_ spells
  cases source with
  | none => rfl
  | some s => rfl

/-- A node that spells a graph is read as that graph. -/
theorem Graph.ofDocument_of_spells {graph : Graph}
    (spells : document.root.Spells (.record graph.fields))
    : Graph.ofDocument document = .ok graph := by
  obtain ⟨name, description, policies⟩ := graph
  have first : Decode.Takes (Draft.take document) .root {} [("name", .text name)]
      ⟨some name, none, none⟩ := by
    refine ⟨⟨some name, none, none⟩, ?_, rfl⟩
    intro node text
    simp only [Draft.take, Decode.once]
    rw [Decode.text_of_spells text]
    rfl
  have optional : Decode.Takes (Draft.take document) .root ⟨some name, none, none⟩
      (optionalField "description" description) ⟨some name, description.map some, none⟩ := by
    cases description with
    | none => rfl
    | some s =>
        refine ⟨⟨some name, some (some s), none⟩, ?_, rfl⟩
        intro node text
        simp only [Draft.take, Decode.once]
        rw [Decode.optionalText_of_spells text]
        rfl
  have last : Decode.Takes (Draft.take document) .root ⟨some name, description.map some, none⟩
      [("extraction_policies", .list (policies.map Policy.tree))]
      ⟨some name, description.map some, some policies⟩ := by
    refine ⟨⟨some name, description.map some, some policies⟩, ?_, rfl⟩
    intro node inner
    simp only [Draft.take, Decode.once]
    rw [Decode.list_of_spells (fun _ _ _ => Policy.ofNode_of_spells) inner]
    rfl
  refine Decode.record_of_takes (first.append (optional.append last)) ?_ spells
  cases description with
  | none => rfl
  | some s => rfl

namespace Graph

/-- Every graph is read back from its YAML form, part by part and character by character. -/
theorem ofDocument_toYaml (graph : Graph)
    : ∃ document, Yaml.Document.ofText graph.toYaml = .ok document
      ∧ ofDocument document = .ok graph := by
  obtain ⟨document, read, spells⟩ :=
    Yaml.Document.ofText_document graph.keyed_fields (List.cons_ne_nil _ _)
  rw [← toYaml_eq] at read
  exact ⟨document, read, ofDocument_of_spells spells⟩

/-- The YAML form of a graph, whatever its texts are, describes this graph and no other, and reading
it gives back the graph if it keeps the rules and reports the rule that it breaks if it does not.
-/
theorem ofYaml_toYaml (graph : Graph)
    : (∃ document, Yaml.Document.ofText graph.toYaml = .ok document
        ∧ ofDocument document = .ok graph)
      ∧ ofYaml graph.toYaml = (graph.validate.mapError Violation.failure).map fun _ => graph := by
  obtain ⟨document, read, known⟩ := graph.ofDocument_toYaml
  refine ⟨⟨document, read, known⟩, ?_⟩
  rw [ofYaml, read, Except.ok_mapError, Except.ok_bind, known, Except.ok_mapError, Except.ok_bind]
  cases graph.validate with
  | ok _ => rfl
  | error violation => rfl

end Graph
end DocPipeline
