import DocPipeline.Failure

/-! Artifacts: what the service has made of a document. The text of a run is its first artifact,
read without any repair.
-/

namespace DocPipeline

/-- An object that a policy produced. -/
structure Artifact where
  id : String
  mimeType : String
  content : Bytes
deriving DecidableEq, Repr

/-- The text of the first artifact. A text with silently replaced characters would be worse than
none, so bytes that are no text are a failure.
-/
def Artifact.firstText (content policy : String) : List Artifact → Except Failure String
  | [] => .error (.noArtifacts content policy)
  | first :: _ =>
    (Text.Utf8.decode first.content).mapError (.artifactNotText first.id)

end DocPipeline
