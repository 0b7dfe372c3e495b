import DocPipeline.Diagnostic
import DocPipeline.Failure
import DocPipeline.Schedule
import DocPipeline.Text.Blank
import DocPipeline.Url.Basic

/-! The settings of a run, put together one at a time and checked at the end. -/

namespace DocPipeline

/-- Someone who is told of the progress of a run, by the number under which it was made. -/
structure Listener where
  number : Nat
deriving DecidableEq, Repr

/-- How a run is to be made. -/
structure Settings where
  /-- Where the service is. -/
  server : String
  /-- The part of the service that holds the graph and the documents. -/
  space : String
  /-- Seconds that fetching a document may take; zero for any time. -/
  downloadSeconds : UInt64
  /-- Seconds that one exchange with the service may take; zero for any time. -/
  requestSeconds : UInt64
  schedule : Schedule
  /-- Where fetched documents are kept; none keeps them nowhere. -/
  workDir : Option String
  /-- Whether the graph is registered before the document is sent. -/
  createGraph : Bool
  /-- Whether a graph of the same name that is registered already will do. -/
  reuseGraph : Bool
  /-- Who is told of the progress of the run, if anyone is. -/
  listener : Option Listener
deriving DecidableEq, Repr

/-- One thing that can be set. -/
inductive Setting where
  | server (url : String)
  | space (name : String)
  | downloadSeconds (n : UInt64)
  | requestSeconds (n : UInt64)
  | initialMillis (n : UInt64)
  | longestMillis (n : UInt64)
  /-- The seconds after which waiting ends; zero waits without end. -/
  | waitSeconds (n : UInt64)
  | schedule (s : Schedule)
  | workDir (path : String)
  | createGraph (yes : Bool)
  | reuseGraph (yes : Bool)
  | listener (who : Listener)
deriving DecidableEq, Repr

namespace Settings

/-- Where the service is unless told otherwise. -/
def standardServer : String := "http://localhost:8900"

/-- The part of the service that is used unless told otherwise. -/
def standardSpace : String := "default"

/-- What holds before anything is set. -/
def standard : Settings where
  server := standardServer
  space := standardSpace
  downloadSeconds := 120
  requestSeconds := 60
  schedule := .default
  workDir := none
  createGraph := true
  reuseGraph := false
  listener := none

/-- The text without the slashes at its end. -/
def withoutSlashes (s : String) : String :=
  String.ofList (s.toList.reverse.dropWhile (· == '/')).reverse

/-- The settings with one thing set. -/
def set (s : Settings) : Setting → Settings
  | .server url => { s with server := withoutSlashes url }
  | .space name => { s with space := name }
  | .downloadSeconds n => { s with downloadSeconds := n }
  | .requestSeconds n => { s with requestSeconds := n }
  | .initialMillis n => { s with schedule := { s.schedule with initial := .ofMillis n } }
  | .longestMillis n => { s with schedule := { s.schedule with longestPause := .ofMillis n } }
  | .waitSeconds n =>
    let timeout := if 0 < n then some (Interval.ofSeconds n) else none
    { s with schedule := { s.schedule with timeout := timeout } }
  | .schedule schedule => { s with schedule := schedule }
  | .workDir path => { s with workDir := some path }
  | .createGraph yes => { s with createGraph := yes }
  | .reuseGraph yes => { s with reuseGraph := yes }
  | .listener who => { s with listener := some who }

/-- A rule that settings break. -/
inductive Violation where
  | serverScheme (url : String)
  | emptySpace
  | noPause
  | pausesInverted (longest initial : Interval)
deriving DecidableEq, Repr

/-- The text in which a broken rule is reported. -/
def Violation.message : Violation → String
  | serverScheme url =>
    "server URL must start with http:// or https://, got '" ++ url ++ "'"
  | emptySpace => "namespace is empty"
  | noPause => "poll interval must be > 0"
  | pausesInverted longest initial =>
    "max poll interval (" ++ longest.text ++ ") is shorter than the initial interval ("
      ++ initial.text ++ ")"

/-- A broken rule as a failure of the run. -/
def Violation.failure (violation : Violation) : Failure :=
  .settingsRefused violation.message

/-- The first rule that the settings break. -/
def check (s : Settings) : Except Violation Unit :=
  if !Url.isWebAddress s.server then .error (.serverScheme s.server)
  else if Text.isEmptyTrimmed s.space then .error .emptySpace
  else if s.schedule.initial.isZero then .error .noPause
  else if s.schedule.longestPause.before s.schedule.initial then
    .error (.pausesInverted s.schedule.longestPause s.schedule.initial)
  else .ok ()

/-- The settings after setting one thing after the other, if they keep all rules. -/
def build (steps : List Setting) : Except Violation Settings :=
  let s := steps.foldl set standard
  s.check.map fun _ => s

/-- The parts of a schedule. -/
def scheduleDiagnostic (s : Schedule) : Diagnostic :=
  .record "PollPolicy"
    [("initial_interval", .leaf s.initial.text), ("max_interval", .leaf s.longestPause.text),
      ("timeout", .option (s.timeout.map fun t => .leaf t.text))]

/-- A truth value. -/
def truth (b : Bool) : Diagnostic :=
  .leaf (if b then "true" else "false")

/-- The diagnostic text of the settings. -/
def diagnostic (s : Settings) : Diagnostic :=
  .record "TranslationConfig"
    [("server_url", .text s.server), ("namespace", .text s.space),
      ("download_timeout_secs", .leaf (toString s.downloadSeconds)),
      ("request_timeout_secs", .leaf (toString s.requestSeconds)),
      ("poll", scheduleDiagnostic s.schedule),
      ("work_dir", .option (s.workDir.map .text)), ("create_graph", truth s.createGraph),
      ("reuse_existing_graph", truth s.reuseGraph),
      ("progress_callback",
        .option (s.listener.map fun _ => .text "<dyn TranslationProgressCallback>"))]

end Settings
end DocPipeline
