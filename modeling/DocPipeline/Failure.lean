import DocPipeline.Text.Quoted
import DocPipeline.Text.Utf8

/-! Everything that ends a run before its text is there. A failure carries what its message
names, grouped by the phase that raises it.
-/

namespace DocPipeline

/-- Why a run ended without a text. -/
inductive Failure where
  /-- There is no readable file at the path. -/
  | inputMissing (path : String)
  /-- The file may not be read. -/
  | inputForbidden (path : String)
  /-- The document could not be fetched. -/
  | downloadFailed (url reason : String)
  /-- Fetching the document took longer than allowed. -/
  | downloadTimedOut (url : String) (seconds : Nat)
  /-- No answer arrived from the service. -/
  | serviceUnreachable (operation reason : String)
  /-- The service answered with a status other than success. -/
  | serviceRefused (operation : String) (status : Nat) (body : String)
  /-- A graph of this name is registered already. -/
  | graphExists (name space : String)
  /-- The answer of the service could not be understood. -/
  | answerUnclear (operation detail : String)
  /-- The service reported that the job failed. -/
  | extractionFailed (content reason : String)
  /-- The job was still running when the wait ran out. -/
  | stillPending (content : String) (seconds checks : Nat)
  /-- The end of the wait lies beyond the end of the clock. -/
  | endBeyondClock
  /-- There were more checks than can be counted. -/
  | checksUncountable
  /-- The policy produced nothing. -/
  | noArtifacts (content policy : String)
  /-- The artifact is no text. -/
  | artifactNotText (artifact : String) (fault : Text.Utf8.Fault)
  /-- A file could not be created or written. -/
  | writeFailed (path reason : String)
  /-- The settings contradict their rules. -/
  | settingsRefused (rule : String)
  /-- The graph could not be read, or breaks a rule. -/
  | graphRefused (rule : String)
  /-- The text of a graph is no well-formed document. -/
  | graphMalformed (problem : String)
  /-- Something that callers cannot influence went wrong. -/
  | internal (problem : String)
deriving DecidableEq, Repr

namespace Failure

/-- The text in which a failure is reported. -/
def message : Failure → String
  | inputMissing path =>
    "Input file not found: '" ++ path ++ "'\nCheck the path exists and is readable."
  | inputForbidden path =>
    "Permission denied reading '" ++ path ++ "'\nTry: chmod +r " ++ Text.quoted path
  | downloadFailed url reason =>
    "Failed to download '" ++ url ++ "': " ++ reason ++ "\nCheck your internet connection."
  | downloadTimedOut url seconds =>
    "Download timed out after " ++ toString seconds ++ "s for '" ++ url
      ++ "'\nIncrease --download-timeout."
  | serviceUnreachable operation reason =>
    "Extraction service unreachable during " ++ operation ++ ": " ++ reason
      ++ "\nIs the server running at the configured --server URL?"
  | serviceRefused operation status body =>
    "Extraction service rejected " ++ operation ++ " (HTTP " ++ toString status ++ "): "
      ++ body
  | graphExists name space =>
    "Extraction graph '" ++ name ++ "' already exists in namespace '" ++ space
      ++ "'\nUse a different graph name, pass --reuse-graph to keep the server's definition, "
      ++ "or --skip-graph-create."
  | answerUnclear operation detail =>
    "Unexpected response from extraction service during " ++ operation ++ ": " ++ detail
  | extractionFailed content reason =>
    "Extraction failed for content '" ++ content ++ "': " ++ reason
  | stillPending content seconds checks =>
    "Content '" ++ content ++ "' still pending after " ++ toString seconds ++ "s ("
      ++ toString checks
      ++ " status checks)\nIncrease --timeout or check the extractor logs."
  | endBeyondClock => "The end of the wait is beyond the end of the clock"
  | checksUncountable => "There were more status checks than can be counted"
  | noArtifacts content policy =>
    "Policy '" ++ policy ++ "' produced no artifacts for content '" ++ content ++ "'"
  | artifactNotText artifact fault =>
    "Artifact '" ++ artifact ++ "' is not valid UTF-8: " ++ fault.message
  | writeFailed path reason => "Failed to write file '" ++ path ++ "': " ++ reason
  | settingsRefused rule => "Invalid configuration: " ++ rule
  | graphRefused rule => "Invalid extraction graph: " ++ rule
  | graphMalformed problem => "Invalid extraction graph: " ++ problem
  | internal problem => "Internal error: " ++ problem

/-- The program breaks down where it comes to this, so that nobody gets it as the result of a call.
-/
def isBreakdown : Failure → Bool
  | endBeyondClock | checksUncountable => true
  | _ => false

/-- The underlying fault that the message ends with, for failures that have one. -/
def source? : Failure → Option String
  | artifactNotText _ fault => some fault.message
  | writeFailed _ reason => some reason
  | _ => none

end Failure
end DocPipeline
