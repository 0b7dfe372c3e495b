/-! What can be said on the command line: every argument with its names, the environment variable
that stands in for it, and what its value has to be.
-/

namespace DocPipeline.CommandLine

/-- An argument of the command. -/
inductive Argument where
  | input | server | space | graph | model | key | language | workDir | output
  | previewCount | initialMillis | longestMillis | timeout | downloadTimeout
  | requestTimeout | printGraph | skipCreate | reuseGraph | json | noProgress | verbose
  | quiet | help | version
deriving DecidableEq, Repr

/-- What the value of an argument has to be. -/
inductive Shape where
  | text
  /-- A path must not be empty. -/
  | path
  /-- A number of sixty-four bits. -/
  | number
  /-- There is no value; naming the argument is enough. -/
  | flag
deriving DecidableEq, Repr

/-- The value of an argument. -/
inductive Value where
  | text (s : String)
  | number (n : Nat)
  | truth (b : Bool)
deriving DecidableEq, Repr

namespace Argument

/-- All arguments, in the order of their declaration. -/
def all : List Argument :=
  [input, server, space, graph, model, key, language, workDir, output, previewCount,
    initialMillis, longestMillis, timeout, downloadTimeout, requestTimeout, printGraph,
    skipCreate, reuseGraph, json, noProgress, verbose, quiet, help, version]

/-- The name after two dashes; the input has none. -/
def longName : Argument → String
  | input => ""
  | server => "server"
  | space => "namespace"
  | graph => "graph"
  | model => "model"
  | key => "api-key"
  | language => "language"
  | workDir => "work-dir"
  | output => "output"
  | previewCount => "preview-chars"
  | initialMillis => "poll-interval-ms"
  | longestMillis => "max-poll-interval-ms"
  | timeout => "timeout"
  | downloadTimeout => "download-timeout"
  | requestTimeout => "request-timeout"
  | printGraph => "print-graph"
  | skipCreate => "skip-graph-create"
  | reuseGraph => "reuse-graph"
  | json => "json"
  | noProgress => "no-progress"
  | verbose => "verbose"
  | quiet => "quiet"
  | help => "help"
  | version => "version"

/-- The letter after one dash. -/
def shortName? : Argument → Option Char
  | output => some 'o'
  | verbose => some 'v'
  | quiet => some 'q'
  | help => some 'h'
  | version => some 'V'
  | _ => none

/-- The environment variable that is looked at when the argument is not given. -/
def variableName? : Argument → Option String
  | server => some "INDEXIFY_URL"
  | space => some "INDEXIFY_NAMESPACE"
  | graph => some "PDF_TRANSLATE_GRAPH"
  | model => some "PDF_TRANSLATE_MODEL"
  | key => some "OPENAI_API_KEY"
  | language => some "PDF_TRANSLATE_LANGUAGE"
  | workDir => some "PDF_TRANSLATE_WORK_DIR"
  | output => some "PDF_TRANSLATE_OUTPUT"
  | previewCount => some "PDF_TRANSLATE_PREVIEW_CHARS"
  | initialMillis => some "PDF_TRANSLATE_POLL_INTERVAL_MS"
  | longestMillis => some "PDF_TRANSLATE_MAX_POLL_INTERVAL_MS"
  | timeout => some "PDF_TRANSLATE_TIMEOUT"
  | downloadTimeout => some "PDF_TRANSLATE_DOWNLOAD_TIMEOUT"
  | requestTimeout => some "PDF_TRANSLATE_REQUEST_TIMEOUT"
  | reuseGraph => some "PDF_TRANSLATE_REUSE_GRAPH"
  | json => some "PDF_TRANSLATE_JSON"
  | noProgress => some "PDF_TRANSLATE_NO_PROGRESS"
  | verbose => some "PDF_TRANSLATE_VERBOSE"
  | quiet => some "PDF_TRANSLATE_QUIET"
  | input | printGraph | skipCreate | help | version => none

/-- What the value has to be. -/
def shape : Argument → Shape
  | input | server | space | model | key | language => .text
  | graph | workDir | output => .path
  | previewCount | initialMillis | longestMillis | timeout | downloadTimeout
  | requestTimeout => .number
  | printGraph | skipCreate | reuseGraph | json | noProgress | verbose | quiet | help
  | version => .flag

/-- The name that stands for the value: the long name in capital letters. -/
def valueName (argument : Argument) : String :=
  argument.longName.map fun c => if c == '-' then '_' else c.toUpper

/-- The argument as messages name it. -/
def label (argument : Argument) : String :=
  if argument = input then "[INPUT]"
  else if argument.shape = .flag then "--" ++ argument.longName
  else "--" ++ argument.longName ++ " <" ++ argument.valueName ++ ">"

/-- The argument with a long name. -/
def ofLongName? (name : String) : Option Argument :=
  all.find? fun argument => argument != input && argument.longName = name

/-- The argument with a letter. -/
def ofShortName? (c : Char) : Option Argument :=
  all.find? (·.shortName? = some c)

end Argument
end DocPipeline.CommandLine
