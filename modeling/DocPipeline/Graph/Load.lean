import DocPipeline.Files.Access
import DocPipeline.Graph.Yaml

/-! Graphs in files. -/

namespace DocPipeline.Graph

/-- Why a file that holds a graph cannot be read. -/
def unreadable (path : String) : PathFault → Failure
  | .missing => .inputMissing path
  | .forbidden => .inputForbidden path
  | fault => .graphRefused (path ++ ": " ++ fault.message)

/-- The graph in the file at a path. -/
def load (tree : Tree) (path : String) : Except Failure Graph := do
  let content ← (tree.read path).mapError (unreadable path)
  match Text.Utf8.decode content with
  | .ok text => ofYaml text
  | .error _ => throw (.graphRefused (path ++ ": stream did not contain valid UTF-8"))

end DocPipeline.Graph
