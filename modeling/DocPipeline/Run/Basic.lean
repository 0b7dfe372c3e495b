import DocPipeline.Delivery
import DocPipeline.Files.Replace
import DocPipeline.Graph.Validity
import DocPipeline.Run.Scene
import DocPipeline.Settings

/-! One run: a document goes to the service, its job is waited for, and the text that the last
policy of the graph made of it comes back. The phases follow each other, none is repeated, and the
first failure ends the run.
-/

namespace DocPipeline

/-- What a run needs besides its input and the scene. -/
structure Plan (σ : Type) where
  settings : Settings
  graph : Graph
  service : Service σ
  /-- Whoever is asked for documents on the web. -/
  peer : Web.Peer
  clock : Clock

/-- The tally of a run whose phases nobody has timed. -/
def Tally.untimed (downloaded uploaded checks characters : Nat) : Tally :=
  ⟨downloaded, uploaded, checks, characters, 0, 0, 0, 0, 0⟩

namespace Run

/-- The policy whose artifacts are the result, of a graph that keeps all rules. -/
def outputPolicy (graph : Graph) : Except Failure Policy := do
  graph.validate.mapError Graph.Violation.failure
  match graph.outputPolicy? with
  | some policy => return policy
  | none => throw (.graphRefused ("graph '" ++ graph.name ++ "' has no policies"))

/-- The document that the input names. -/
def resolve {σ : Type} (plan : Plan σ) (input : String) : Phase σ Document :=
  ExceptT.mk fun scene =>
    let (result, tree, traffic) :=
      Document.resolve plan.peer plan.settings.downloadSeconds.toNat plan.settings.workDir input
        scene.tree scene.outside.traffic
    (result, { scene with tree := tree, outside := { scene.outside with traffic := traffic } })

/-- Sends the document, after registering the graph if that is wanted. -/
def submit {σ : Type} (plan : Plan σ) (document : Document) : Phase σ String := do
  if plan.settings.createGraph then
    Phase.consult (.create plan.graph) (plan.service.create plan.graph)
  let tree ← Phase.examine .ok
  let content ← Phase.consult (.upload plan.graph.name document.path)
    (plan.service.upload plan.graph.name document.path tree)
  Phase.report plan.settings.listener (.submitted content)
  return content

/-- The text that a policy made of the content. -/
def text {σ : Type} (plan : Plan σ) (policy content : String) : Phase σ String := do
  let artifacts ← Phase.consult (.fetch content plan.graph.name policy)
    (plan.service.fetch content plan.graph.name policy)
  Phase.purely (Artifact.firstText content policy artifacts)

/-- Everything that is done with a document. -/
def process {σ : Type} (plan : Plan σ) (policy : Policy) (document : Document)
    : Phase σ Delivery := do
  let size ← Phase.examine document.size
  Phase.report plan.settings.listener (.inputReady size)
  let content ← submit plan document
  let checks ← Phase.wait plan.clock plan.settings.schedule plan.settings.listener content
    (plan.service.status content)
  let text ← text plan policy.name content
  Phase.report plan.settings.listener (.complete text.length)
  let tally := Tally.untimed document.downloadedBytes size checks text.length
  return ⟨text, content, plan.graph.name, policy.name, tally⟩

/-- Whatever a phase does, the tree is then freed of what was there for the document only. -/
def releasing {σ α : Type} (document : Document) (phase : Phase σ α) : Phase σ α :=
  ExceptT.mk fun scene =>
    let (result, scene) := phase.outcome scene
    (result, { scene with tree := document.release scene.tree })

/-- The run on an input. -/
def deliver {σ : Type} (plan : Plan σ) (input : String) : Phase σ Delivery := do
  let policy ← Phase.purely (outputPolicy plan.graph)
  let document ← resolve plan input
  releasing document (process plan policy document)

/-- The run on an input, with the text written to a file when all else is done. -/
def deliverTo {σ : Type} (plan : Plan σ) (input path : String) : Phase σ Delivery := do
  let delivery ← deliver plan input
  ExceptT.mk fun scene =>
    let (result, tree) := scene.tree.replace path (Text.Utf8.encode delivery.text)
    (result.map fun _ => delivery, { scene with tree := tree })

/-- The run on an input, with a file for the text if there is to be one. -/
def carryOut {σ : Type} (plan : Plan σ) (input : String) : Option String → Phase σ Delivery
  | some path => deliverTo plan input path
  | none => deliver plan input

end Run

/-- The events among moments. -/
def Moment.events (moments : List Moment) : List Event :=
  moments.filterMap fun
    | .reported _ event => some event
    | .asked _ => none

/-- The questions among moments. -/
def Moment.questions (moments : List Moment) : List Question :=
  moments.filterMap fun
    | .asked question => some question
    | .reported .. => none

end DocPipeline
