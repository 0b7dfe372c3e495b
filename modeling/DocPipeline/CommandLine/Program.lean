import DocPipeline.CommandLine.Options
import DocPipeline.Graph.Load
import DocPipeline.Preview
import DocPipeline.Run.Basic
import DocPipeline.Service.Client

/-! The command: from its arguments, its environment and the files around it to what it prints and
leaves behind. A graph whose keys cannot work is refused before anything is sent.
-/

namespace DocPipeline.CommandLine

/-- What the command prints, and the code with which it ends. Printing itself always succeeds. -/
structure Output where
  code : Nat
  stdout : String
  stderr : String
deriving DecidableEq, Repr

/-- A failure, with what was attempted. -/
structure Refusal where
  attempt : String
  failure : Failure
deriving DecidableEq, Repr

/-- A text in green. -/
def green (s : String) : String := "\x1b[32m" ++ s ++ "\x1b[0m"

/-- A faint text. -/
def faint (s : String) : String := "\x1b[2m" ++ s ++ "\x1b[0m"

/-- A bold text. -/
def bold (s : String) : String := "\x1b[1m" ++ s ++ "\x1b[0m"

namespace Refusal

/-- A text of several lines, with something before the first one and each of the others. -/
def indented (first other : String) (s : String) : String :=
  first ++ String.ofList
    (s.toList.flatMap fun c => if c == '\n' then '\n' :: other.toList else [c])

/-- The causes of a failure, numbered if there are several. -/
def causes (failure : Failure) : String :=
  match failure.source? with
  | none => indented "    " "    " failure.message ++ "\n"
  | some source =>
    indented "    0: " "       " failure.message ++ "\n"
      ++ indented "    1: " "       " source ++ "\n"

/-- What is printed about a refusal. -/
def report (r : Refusal) : String :=
  "Error: " ++ r.attempt ++ "\n\nCaused by:\n" ++ causes r.failure

/-- A refusal of what failed. -/
def ofResult {α : Type} (attempt : String) (result : Except Failure α) : Except Refusal α :=
  result.mapError fun failure => ⟨attempt, failure⟩

end Refusal

namespace Options

/-- The graph before the model and the key are put in. -/
def baseGraph (o : Options) (tree : Tree) : Except Refusal Graph :=
  match o.graph with
  | some path => Refusal.ofResult ("Failed to load graph from " ++ path) (Graph.load tree path)
  | none => .ok (Graph.forLanguage o.language Graph.standardModel Graph.placeholderKey)

/-- The graph that is asked for. -/
def buildGraph (o : Options) (tree : Tree) : Except Refusal Graph := do
  let graph ← o.baseGraph tree
  let graph := o.model.elim graph graph.withModel
  return o.key.elim graph graph.withKey

/-- Refuses a graph that would be registered although its keys cannot work. -/
def ensureUsable (o : Options) (graph : Graph) : Except Refusal Unit :=
  if o.skipCreate then .ok ()
  else
    Refusal.ofResult "Refusing to register the extraction graph"
      (graph.ensureCredentials.mapError Graph.Violation.failure)

/-- The settings that are asked for. -/
def settings (o : Options) : Except Refusal Settings :=
  Refusal.ofResult "Invalid configuration"
    ((Settings.build o.settingSteps).mapError Settings.Violation.failure)

/-- What is printed of a delivery. -/
def shown (o : Options) (d : Delivery) : String :=
  if o.json then d.toJson.pretty ++ "\n"
  else if o.quiet then ""
  else
    let text := preview d.text o.previewCount
    if text.toList.getLast? = some '\n' then text else text ++ "\n"

/-- The line about the end of the run. -/
def completionLine (o : Options) (d : Delivery) : String :=
  if o.showsProgress then
    green "✔" ++ " " ++ bold (toString d.tally.characters) ++ " characters translated\n"
  else ""

/-- The line about what the run took. -/
def summaryLine (o : Options) (d : Delivery) : String :=
  if o.quiet || o.json then ""
  else
    "   " ++ faint ("content " ++ d.content) ++ "  " ++ toString d.tally.checks ++ " checks  "
      ++ toString d.tally.totalMillis ++ "ms total"
      ++ (o.output.elim "" fun path => "  →  " ++ bold path) ++ "\n"

/-- The code of a program that breaks down. -/
def breakdownCode : Nat := 101

/-- What is printed after a run. Where the program breaks down it makes no report of its own. -/
def finish (o : Options) : Except Failure Delivery → Output
  | .ok d => ⟨0, o.shown d, o.completionLine d ++ o.summaryLine d⟩
  | .error failure =>
    if failure.isBreakdown then ⟨breakdownCode, "", failure.message ++ "\n"⟩
    else ⟨1, "", Refusal.report ⟨"Translation failed", failure⟩⟩

/-- Everything that is settled before the run begins. -/
def plan (o : Options) (peer : Web.Peer) (clock : Clock) (graph : Graph)
    : Except Refusal (Plan Unit) := do
  o.ensureUsable graph
  let settings ← o.settings
  return ⟨settings, graph, (Client.ofSettings settings).service peer, peer, clock⟩

/-- Carries out what is asked for. -/
def carryOut (o : Options) (peer : Web.Peer) (clock : Clock) (scene : Scene Unit)
    : Output × Scene Unit :=
  match o.buildGraph scene.tree with
  | .error refusal => (⟨1, "", refusal.report⟩, scene)
  | .ok graph =>
    if o.printGraph then (⟨0, graph.toYaml, ""⟩, scene)
    else
      match o.plan peer clock graph with
      | .error refusal => (⟨1, "", refusal.report⟩, scene)
      | .ok plan =>
        let (result, scene) := (Run.carryOut plan o.input o.output).outcome scene
        (o.finish result, scene)

end Options

/-- The name of the command and its version. -/
def versionLine : String := "pdf-translate 0.1.0\n"

/-- What is printed when a command line leads to no run, where the help is this text. Of a fault
only the first line is printed, without the advice behind it.
-/
def Stop.output (help : String) : Stop → Output
  | .fault wrong => ⟨2, "", wrong.message ++ "\n"⟩
  | .help => ⟨0, help, ""⟩
  | .version => ⟨0, versionLine, ""⟩

/-- The command. The text of its help is laid out by whatever describes the arguments, and is left
open.
-/
def run (help : String) (args : List String) (env : List (String × String)) (peer : Web.Peer)
    (clock : Clock) (tree : Tree) : Output × Scene Unit :=
  let scene : Scene Unit := ⟨tree, ⟨(), .none⟩, []⟩
  match Given.ofArguments args env with
  | .error stop => (stop.output help, scene)
  | .ok given => given.options.carryOut peer clock scene

end DocPipeline.CommandLine
