import DocPipeline.Graph.Basic
import DocPipeline.Json.Decode
import DocPipeline.Json.Writer

/-! Graphs in JSON form, in which they are sent to the service. -/

namespace DocPipeline

open Json.Decode

namespace Params

/-- The fields of the parameters. -/
def toJson (params : Params) : Json :=
  .record
    [("model_name", .text params.model), ("key", .text params.key),
      ("system_prompt", .text params.prompt)]

/-- Parameters that are all there. -/
def ofJson (json : Json) : Option Params := do
  match ← slots ["model_name", "key", "system_prompt"] json with
  | [model, key, prompt] =>
    return ⟨← required text model, ← required text key, ← required text prompt⟩
  | _ => none

end Params

namespace Policy

/-- The fields of a policy. -/
def toJson (policy : Policy) : Json :=
  .record
    ([("extractor", .text policy.extractor), ("name", .text policy.name),
        ("input_params", policy.params.toJson)]
      ++ Json.optionalField "content_source" policy.source)

/-- A policy with all that it must have. -/
def ofJson (json : Json) : Option Policy := do
  match ← slots ["extractor", "name", "input_params", "content_source"] json with
  | [extractor, name, params, source] =>
    return ⟨← required text extractor, ← required text name, ← required Params.ofJson params,
      ← withDefault none optionalText source⟩
  | _ => none

end Policy

namespace Graph

/-- The fields of a graph. -/
def toJson (graph : Graph) : Json :=
  .record
    ([("name", .text graph.name)] ++ Json.optionalField "description" graph.description
      ++ [("extraction_policies", .array (graph.policies.map Policy.toJson))])

/-- A graph with all that it must have, whether or not it keeps the rules. -/
def ofJson (json : Json) : Option Graph := do
  match ← slots ["name", "description", "extraction_policies"] json with
  | [name, description, policies] =>
    return ⟨← required text name, ← withDefault none optionalText description,
      ← required (list Policy.ofJson) policies⟩
  | _ => none

end Graph
end DocPipeline
