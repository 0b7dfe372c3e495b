import DocPipeline.Failure
import DocPipeline.Files.Change

/-! Writing a file all at once. The content goes to a temporary file beside the target, which then
takes the target's place in one step; whoever looks sees the old content or the new one. If any
step fails the temporary file is removed.
-/

namespace DocPipeline.Tree

/-- The directory beside whose entries the target of a path stands. -/
def directoryFor (path : String) : String :=
  if (Path.parent path).isEmpty then "." else Path.parent path

/-- The tree with an empty temporary file in a directory, and the place of that file. -/
def createTemporary (tree : Tree) (directory : String) : Except PathFault (Location × Tree) := do
  let spot ← tree.spot directory
  if tree.hasDirectory spot.location then
    let location := tree.freshLocation spot.location
    return (location, tree.put location (.file []))
  else throw .notDirectory

/-- Moves a temporary file to its target, or removes it. -/
def publish (tree : Tree) (temporary : Location) (path : String)
    : Except PathFault Unit × Tree :=
  match tree.moveOver temporary path with
  | .ok tree => (.ok (), tree)
  | .error fault => (.error fault, tree.remove temporary)

/-- Writes a file, by way of a temporary one in the same directory, which must be there. -/
def replaceIn (tree : Tree) (path : String) (content : Bytes) : Except PathFault Unit × Tree :=
  match tree.createTemporary (directoryFor path) with
  | .error fault => (.error fault, tree)
  | .ok (temporary, tree) => (tree.put temporary (.file content)).publish temporary path

/-- Writes a file in one step, after creating the parents that are missing. -/
def replace (tree : Tree) (path : String) (content : Bytes) : Except Failure Unit × Tree :=
  match tree.createDirectories (directoryFor path) with
  | (.error fault, tree) => (.error (.writeFailed path fault.message), tree)
  | (.ok _, tree) =>
    let (result, tree) := tree.replaceIn path content
    (result.mapError fun fault => .writeFailed path fault.message, tree)

end DocPipeline.Tree
