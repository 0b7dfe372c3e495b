import DocPipeline.CommandLine.Program
import DocPipeline.Number.Power

/-! The command as a program. It looks up the files that the command line names, lets the command
do its work on them, and brings the changes back. No connection is opened from here: to the
command it is as if nobody could be reached.
-/

namespace DocPipeline.Main

/-- The help that is given here: no more than how the command is used. -/
def usage : String := "Usage: pdf-translate [OPTIONS] [INPUT]\n"

/-- The environment variables that stand in for arguments. -/
def variableValues : IO (List (String × String)) :=
  (CommandLine.Argument.all.filterMap (·.variableName?)).filterMapM fun name => do
    return (← IO.getEnv name).map fun value => (name, value)

/-- The number of the error of reading a directory as if it were a file. -/
def directoryError : UInt32 := 21

/-- The tree with what really stands at a place. Of what may not be read nothing else is known. -/
def lookAt (tree : Tree) (location : Location) : IO Tree := do
  if location.isEmpty then return tree
  try
    let content ← IO.FS.readBinFile (Path.ofNames true location)
    return tree.put location (.file content.toList)
  catch
    | .inappropriateType _ number _ =>
      return if number = directoryError then tree.put location .directory else tree
    | .permissionDenied .. => return tree.put location (.sealed [])
    | _ => return tree

/-- The place to which one step leads. -/
def stepFrom (location : Location) (name : Name) : Location :=
  if name = Path.here then location
  else if name = Path.above then location.dropLast
  else location ++ [name]

/-- The tree with what really stands at each place on the way from a place. -/
def lookAlongSteps (tree : Tree) (location : Location) : List Name → IO Tree
  | [] => return tree
  | name :: rest => do
    let location := stepFrom location name
    let tree ← lookAt tree location
    lookAlongSteps tree location rest

/-- The tree with what really stands on the way to a path. -/
def lookAlong (tree : Tree) (path : String) : IO Tree :=
  lookAlongSteps tree (if Path.isAbsolute path then [] else tree.home) (Path.steps path)

/-- The paths that a command line names. -/
def namedPaths (options : CommandLine.Options) : List String :=
  options.input :: (options.graph.toList ++ options.output.toList ++ options.workDir.toList)

/-- The tree of all files that matter for a command line. -/
def surroundings (args : List String) (env : List (String × String)) : IO Tree := do
  let here := (← IO.currentDir).toString
  let tree ← lookAlong ⟨Path.names here, []⟩ here
  match CommandLine.Given.ofArguments args env with
  | .error _ => return tree
  | .ok given => (namedPaths given.options).foldlM lookAlong tree

/-- Brings one entry back. A file takes its place in one step; one that may not be read has not
changed.
-/
def bringBack (location : Location) (entry : Entry) : IO Unit := do
  let path := Path.ofNames true location
  match entry with
  | .directory => IO.FS.createDirAll path
  | .sealed _ => return
  | .file content =>
    let temporary := path ++ ".tmp"
    IO.FS.writeBinFile temporary ⟨content.toArray⟩
    IO.FS.rename temporary path

/-- Brings all changes back, directories before what is in them. -/
def bringBackChanges (before after : Tree) : IO Unit := do
  let changed := after.entries.filter fun entry => before.lookup entry.1 != some entry.2
  let inOrder := changed.mergeSort fun a b => a.1.length ≤ b.1.length
  inOrder.forM fun entry => bringBack entry.1 entry.2

/-- The time for which the clock still runs: all of it but a day. -/
def clock : Clock :=
  .bounded ((2 ^ 63 - 86400) * 10 ^ 9)

end DocPipeline.Main

/-- Runs the command. -/
def main (args : List String) : IO UInt32 := do
  let env ← DocPipeline.Main.variableValues
  let tree ← DocPipeline.Main.surroundings args env
  let (output, scene) :=
    DocPipeline.CommandLine.run DocPipeline.Main.usage args env DocPipeline.Web.unreachable
      DocPipeline.Main.clock tree
  DocPipeline.Main.bringBackChanges tree scene.tree
  (← IO.getStdout).putStr output.stdout
  (← IO.getStderr).putStr output.stderr
  return UInt32.ofNat output.code
