import DocPipeline.Graph.Validity
import DocPipeline.Yaml.Decode
import DocPipeline.Yaml.Writer

/-! Graphs in YAML form. Fields may come in any order and unknown ones are passed over; a graph
that can be read must also keep the rules.
-/

namespace DocPipeline

open Yaml

namespace Params

/-- The parameters read so far. -/
structure Draft where
  model : Option String := none
  key : Option String := none
  prompt : Option String := none

/-- Takes one field. -/
def Draft.take (document : Yaml.Document) (draft : Draft) (name : String) (path : Path)
    (node : Node Nat) : Except Misfit Draft := do
  match name with
  | "model_name" =>
    return { draft with model := ← Decode.once name draft.model (Decode.text document path node) }
  | "key" =>
    return { draft with key := ← Decode.once name draft.key (Decode.text document path node) }
  | "system_prompt" =>
    return { draft with prompt := ← Decode.once name draft.prompt (Decode.text document path node) }
  | _ => return draft

/-- The parameters, when all of them are there. -/
def Draft.finish (draft : Draft) : Except Misfit Params := do
  let model ← Decode.required "model_name" draft.model
  let key ← Decode.required "key" draft.key
  let prompt ← Decode.required "system_prompt" draft.prompt
  return ⟨model, key, prompt⟩

/-- The parameters that a node describes. -/
def ofNode (document : Yaml.Document) (path : Path) (node : Node Nat) : Except Misfit Params :=
  Decode.record "struct PolicyParams" {} (Draft.take document) Draft.finish document path node

end Params

namespace Policy

/-- The parts of a policy read so far. -/
structure Draft where
  extractor : Option String := none
  name : Option String := none
  params : Option Params := none
  source : Option (Option String) := none

/-- Takes one field. -/
def Draft.take (document : Yaml.Document) (draft : Draft) (name : String) (path : Path)
    (node : Node Nat) : Except Misfit Draft := do
  match name with
  | "extractor" =>
    let value ← Decode.once name draft.extractor (Decode.text document path node)
    return { draft with extractor := value }
  | "name" =>
    let value ← Decode.once name draft.name (Decode.text document path node)
    return { draft with name := value }
  | "input_params" =>
    let value ← Decode.once name draft.params (Params.ofNode document path node)
    return { draft with params := value }
  | "content_source" =>
    let value ← Decode.once name draft.source (Decode.optionalText document path node)
    return { draft with source := value }
  | _ => return draft

/-- The policy, when all that it must have is there. -/
def Draft.finish (draft : Draft) : Except Misfit Policy := do
  let extractor ← Decode.required "extractor" draft.extractor
  let name ← Decode.required "name" draft.name
  let params ← Decode.required "input_params" draft.params
  return ⟨extractor, name, params, draft.source.join⟩

/-- The policy that a node describes. -/
def ofNode (document : Yaml.Document) (path : Path) (node : Node Nat) : Except Misfit Policy :=
  Decode.record "struct ExtractionPolicy" {} (Draft.take document) Draft.finish document path
    node

end Policy

namespace Graph

/-- The parts of a graph read so far. -/
structure Draft where
  name : Option String := none
  description : Option (Option String) := none
  policies : Option (List Policy) := none

/-- Takes one field. -/
def Draft.take (document : Yaml.Document) (draft : Draft) (name : String) (path : Path)
    (node : Node Nat) : Except Misfit Draft := do
  match name with
  | "name" =>
    let value ← Decode.once name draft.name (Decode.text document path node)
    return { draft with name := value }
  | "description" =>
    let value ← Decode.once name draft.description (Decode.optionalText document path node)
    return { draft with description := value }
  | "extraction_policies" =>
    let value ← Decode.once name draft.policies
      (Decode.list (Policy.ofNode document) document path node)
    return { draft with policies := value }
  | _ => return draft

/-- The graph, when all that it must have is there. -/
def Draft.finish (draft : Draft) : Except Misfit Graph := do
  let name ← Decode.required "name" draft.name
  let policies ← Decode.required "extraction_policies" draft.policies
  return ⟨name, draft.description.join, policies⟩

/-- The graph that a document describes. -/
def ofDocument (document : Yaml.Document) : Except Misfit Graph :=
  Decode.record "struct ExtractionGraph" {} (Draft.take document) Draft.finish document .root
    document.root

/-- The graph that a text describes, if it keeps all rules. -/
def ofYaml (text : String) : Except Failure Graph := do
  let document ← (Yaml.Document.ofText text).mapError fun fault => .graphMalformed fault.message
  let graph ← (ofDocument document).mapError fun misfit => .graphRefused misfit.message
  graph.validate.mapError Violation.failure
  return graph

end Graph

/-- A field that is left out when there is nothing in it. -/
def optionalField (key : String) (value : Option String) : List (String × Yaml.Tree) :=
  (value.map fun s => (key, .text s)).toList

/-- The fields of the parameters. -/
def Params.tree (params : Params) : Yaml.Tree :=
  .record
    [("model_name", .text params.model), ("key", .text params.key),
      ("system_prompt", .text params.prompt)]

/-- The fields of a policy. -/
def Policy.tree (policy : Policy) : Yaml.Tree :=
  .record
    ([("extractor", .text policy.extractor), ("name", .text policy.name),
        ("input_params", policy.params.tree)]
      ++ optionalField "content_source" policy.source)

/-- The graph in YAML form. -/
def Graph.toYaml (graph : Graph) : String :=
  Writer.document
    ([("name", .text graph.name)] ++ optionalField "description" graph.description
      ++ [("extraction_policies", .list (graph.policies.map Policy.tree))])

end DocPipeline
