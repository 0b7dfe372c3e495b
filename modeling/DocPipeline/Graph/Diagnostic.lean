import DocPipeline.Diagnostic
import DocPipeline.Graph.Basic

/-! The diagnostic text of a graph. Credentials never show in it. -/

namespace DocPipeline

/-- What stands in place of a credential. -/
def redacted : String := "<redacted>"

/-- The parameters without their credential. -/
def Params.diagnostic (params : Params) : Diagnostic :=
  .record "PolicyParams"
    [("model_name", .text params.model), ("key", .text redacted),
      ("system_prompt", .text params.prompt)]

/-- The parts of a policy. -/
def Policy.diagnostic (policy : Policy) : Diagnostic :=
  .record "ExtractionPolicy"
    [("extractor", .text policy.extractor), ("name", .text policy.name),
      ("input_params", policy.params.diagnostic),
      ("content_source", .option (policy.source.map .text))]

/-- The parts of a graph. -/
def Graph.diagnostic (graph : Graph) : Diagnostic :=
  .record "ExtractionGraph"
    [("name", .text graph.name), ("description", .option (graph.description.map .text)),
      ("extraction_policies", .list (graph.policies.map Policy.diagnostic))]

end DocPipeline
