import DocPipeline.Document.Basic
import DocPipeline.Graph.Json
import DocPipeline.Service.Basic
import DocPipeline.Service.Form
import DocPipeline.Service.Wire
import DocPipeline.Settings
import DocPipeline.Url.Route

/-! The service on the web. Every name is one segment of the address that is asked, whatever it
consists of. A request is sent once, and what comes back is success or a failure that says how far
the request got.
-/

namespace DocPipeline

/-- How a service on the web is spoken to. -/
structure Client where
  /-- The address of the server, without slashes at its end. -/
  base : String
  space : String
  /-- Whether a graph of the same name that is registered already will do. -/
  reuseGraph : Bool
deriving DecidableEq, Repr

namespace Client

/-- The client for a server. -/
def standard (base space : String) : Client :=
  ⟨Settings.withoutSlashes base, space, false⟩

/-- The client for the server of the settings. -/
def ofSettings (settings : Settings) : Client :=
  { standard settings.server settings.space with reuseGraph := settings.reuseGraph }

/-- An address that cannot be built, as a failure of the run. -/
def badBase (client : Client) (detail : String) : Failure :=
  .settingsRefused ("invalid server URL '" ++ client.base ++ "': " ++ detail)

/-- The address of a thing in the space of the client. -/
def address (client : Client) (names : List String) : Except Failure Url :=
  match Url.parse client.base with
  | .error fault => .error (client.badBase fault.message)
  | .ok url =>
    if url.carriesPath then .ok (url.extend ("namespaces" :: client.space :: names))
    else .error (client.badBase "cannot carry a path")

/-- The code of a name that is taken. -/
def conflict : Nat := 409

/-- The text of a refusal; a body that does not arrive counts as empty. -/
def refusalText (answer : Web.Answer) : String :=
  match answer.wholeBody with
  | .ok body => Text.Utf8.decodeLossy body
  | .error _ => ""

/-- What an answer means for an operation. -/
def granted (operation : String) : Except Web.Fault Web.Answer → Except Failure Web.Answer
  | .error fault => .error (.serviceUnreachable operation fault.message)
  | .ok answer =>
    if Web.Code.isSuccess answer.code then .ok answer
    else .error (.serviceRefused operation answer.code (refusalText answer))

/-- Asks for an operation; only an answer that grants it is a success. -/
def ask {σ : Type} (peer : Web.Peer) (operation : String) (method : Web.Method) (url : Url)
    (payload : Web.Payload) : Call σ Web.Answer :=
  ExceptT.mk fun outside =>
    let (result, traffic) := Web.send peer method url payload outside.traffic
    (granted operation result, { outside with traffic := traffic })

/-- The body of a granted answer. -/
def body (operation : String) (answer : Web.Answer) : Except Failure Bytes :=
  answer.wholeBody.mapError fun fault => .answerUnclear operation fault.message

/-- What a granted answer says, if it can be understood. -/
def understood {α : Type} (operation : String) (read : Json → Option α) (answer : Web.Answer)
    : Except Failure α := do
  match (Json.ofBytes (← body operation answer)).bind read with
  | some value => return value
  | none => throw (.answerUnclear operation "error decoding response body")

/-- A result that needs no call. -/
def purely {σ α : Type} (result : Except Failure α) : Call σ α :=
  ExceptT.mk (pure result)

/-- What a refused registration means: a name that is taken is no failure if the graph that has
it will do.
-/
def registered (client : Client) (graph : Graph)
    : Except Failure Web.Answer → Except Failure Unit
  | .ok _ => .ok ()
  | .error (.serviceRefused operation code text) =>
    if code = conflict then
      if client.reuseGraph then .ok () else .error (.graphExists graph.name client.space)
    else .error (.serviceRefused operation code text)
  | .error failure => .error failure

/-- Registers a graph. -/
def create {σ : Type} (client : Client) (peer : Web.Peer) (graph : Graph) : Call σ Unit := do
  let url ← purely (client.address ["extraction_graphs"])
  let payload := .json graph.toJson.compact
  let result ← ExceptT.lift (ask peer "graph creation" .post url payload).run
  purely (client.registered graph result)

/-- A name for a content that says something. -/
def named (operation content : String) : Except Failure String :=
  if content.isEmpty then .error (.answerUnclear operation "empty content_id")
  else .ok content

/-- Sends a file to a graph. -/
def upload {σ : Type} (client : Client) (peer : Web.Peer) (graph path : String) (tree : Tree)
    : Call σ String := do
  let operation := "upload"
  let content ← purely (Document.content path tree)
  let url ← purely (client.address ["extraction_graphs", graph, "extract"])
  let answer ← ask peer operation .post url (Form.ofFile path content)
  let content ← purely (understood operation Wire.content answer)
  purely (named operation content)

/-- Asks for the state of a job. -/
def status {σ : Type} (client : Client) (peer : Web.Peer) (content : String)
    : Call σ Status := do
  let operation := "status check"
  let url ← purely (client.address ["content", content, "tasks"])
  let answer ← ask peer operation .get url .nothing
  let tasks ← purely (understood operation Wire.tasks answer)
  return Status.ofTasks tasks

/-- Asks for one artifact. -/
def artifact {σ : Type} (client : Client) (peer : Web.Peer) (child : Wire.Child)
    : Call σ Artifact := do
  let operation := "artifact download"
  let url ← purely (client.address ["content", child.id, "download"])
  let answer ← ask peer operation .get url .nothing
  let content ← purely (body operation answer)
  return ⟨child.id, child.mimeType, content⟩

/-- Asks for all artifacts of a policy, one after the other. -/
def fetch {σ : Type} (client : Client) (peer : Web.Peer) (content graph policy : String)
    : Call σ (List Artifact) := do
  let operation := "artifact listing"
  let url ← purely (client.address
    ["extraction_graphs", graph, "extraction_policies", policy, "content", content])
  let answer ← ask peer operation .get url .nothing
  let children ← purely (understood operation Wire.listing answer)
  (children.filter (·.source = policy)).mapM (client.artifact peer)

/-- The service that the client speaks to. -/
def service {σ : Type} (client : Client) (peer : Web.Peer) : Service σ where
  create := client.create peer
  upload := client.upload peer
  status := client.status peer
  fetch := client.fetch peer

end Client
end DocPipeline
