import DocPipeline.Artifact
import DocPipeline.Files.Tree
import DocPipeline.Graph.Basic
import DocPipeline.Job.Status
import DocPipeline.Web.Traffic

/-! What a run needs of a service: to register a graph, to take a document, to tell the state of
its job, and to hand out what was made of it. Any four functions on any state will do.
-/

namespace DocPipeline

/-- What a run does not control: the state of the service, and the traffic on the web. -/
structure Outside (σ : Type) where
  service : σ
  traffic : Web.Traffic

/-- Something asked of the outside, which may fail and leaves its marks there either way. -/
abbrev Call (σ α : Type) := ExceptT Failure (StateM (Outside σ)) α

/-- A service for documents, with a state of its own. -/
structure Service (σ : Type) where
  /-- Registers a graph under its name. -/
  create : Graph → Call σ Unit
  /-- Takes the file at a path of a tree for the graph of a name. The result is the name of the
  content.
  -/
  upload : String → String → Tree → Call σ String
  /-- Tells the state of the job on a content. -/
  status : String → Call σ Status
  /-- Hands out what a policy of a graph made of a content: first the content, then the graph,
  then the policy.
  -/
  fetch : String → String → String → Call σ (List Artifact)

namespace Call

/-- What a call returns and leaves behind. -/
def outcome {σ α : Type} (call : Call σ α) (outside : Outside σ)
    : Except Failure α × Outside σ :=
  call.run.run outside

end Call
end DocPipeline
