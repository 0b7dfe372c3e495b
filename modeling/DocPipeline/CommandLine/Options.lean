import DocPipeline.CommandLine.Reading
import DocPipeline.Settings

/-! What a command line asks for, with everything that it leaves open filled in. -/

namespace DocPipeline.CommandLine

/-- What a command line asks for. -/
structure Options where
  input : String
  server : String
  space : String
  /-- The path of a file with the graph. -/
  graph : Option String
  model : Option String
  key : Option String
  language : String
  workDir : Option String
  /-- The path of the file for the text. -/
  output : Option String
  /-- How many characters of the text are printed. -/
  previewCount : Nat
  initialMillis : Nat
  longestMillis : Nat
  timeout : Nat
  downloadTimeout : Nat
  requestTimeout : Nat
  printGraph : Bool
  skipCreate : Bool
  reuseGraph : Bool
  json : Bool
  noProgress : Bool
  verbose : Bool
  quiet : Bool
deriving DecidableEq, Repr

/-- The document that is taken when none is named. -/
def standardInput : String := "https://arxiv.org/pdf/2310.06825.pdf"

namespace Given

/-- A text, if it was given. -/
def text? (given : Given) (argument : Argument) : Option String :=
  match given.value? argument with
  | some (.text s) => some s
  | _ => none

/-- A number, or the one that is taken when none was given. -/
def number (given : Given) (argument : Argument) (standard : Nat) : Nat :=
  match given.value? argument with
  | some (.number n) => n
  | _ => standard

/-- Whether a flag was given. -/
def flag (given : Given) (argument : Argument) : Bool :=
  match given.value? argument with
  | some (.truth b) => b
  | _ => false

/-- What is asked for, with what was not given filled in. -/
def options (given : Given) : Options where
  input := (given.text? .input).getD standardInput
  server := (given.text? .server).getD Settings.standardServer
  space := (given.text? .space).getD Settings.standardSpace
  graph := given.text? .graph
  model := given.text? .model
  key := given.text? .key
  language := (given.text? .language).getD "French"
  workDir := given.text? .workDir
  output := given.text? .output
  previewCount := given.number .previewCount 1000
  initialMillis := given.number .initialMillis 500
  longestMillis := given.number .longestMillis 10000
  timeout := given.number .timeout 600
  downloadTimeout := given.number .downloadTimeout 120
  requestTimeout := given.number .requestTimeout 60
  printGraph := given.flag .printGraph
  skipCreate := given.flag .skipCreate
  reuseGraph := given.flag .reuseGraph
  json := given.flag .json
  noProgress := given.flag .noProgress
  verbose := given.flag .verbose
  quiet := given.flag .quiet

end Given

namespace Options

/-- What shows the progress of a run. -/
def display : Listener :=
  ⟨0⟩

/-- Whether the progress of the run is shown. -/
def showsProgress (o : Options) : Bool :=
  !o.quiet && !o.noProgress && !o.json && !o.printGraph

/-- The settings that are asked for, one by one. -/
def settingSteps (o : Options) : List Setting :=
  [.server o.server, .space o.space, .downloadSeconds (.ofNat o.downloadTimeout),
    .requestSeconds (.ofNat o.requestTimeout), .initialMillis (.ofNat o.initialMillis),
    .longestMillis (.ofNat o.longestMillis), .waitSeconds (.ofNat o.timeout),
    .createGraph !o.skipCreate, .reuseGraph o.reuseGraph]
    ++ (o.workDir.map Setting.workDir).toList
    ++ (if o.showsProgress then [.listener display] else [])

end Options
end DocPipeline.CommandLine
