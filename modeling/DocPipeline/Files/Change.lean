import DocPipeline.Files.Access

/-! Changing a tree: directories, files written in place, and files moved over others. A change
that fails has changed nothing, except that missing parents are created one by one.
-/

namespace DocPipeline.Tree

/-- The tree with a new directory. -/
def createDirectory (tree : Tree) (path : String) : Except PathFault Tree := do
  let spot ← tree.spot path
  if !spot.isNamed || (tree.lookup spot.location).isSome then throw .exists
  return tree.put spot.location .directory

/-- A directory that could not be created will do if it is there. -/
def acceptDirectory (tree : Tree) (path : String) (fault : PathFault)
    : Except PathFault Unit × Tree :=
  if tree.isDirectory path then (.ok (), tree) else (.error fault, tree)

/-- Creates the first directory of the list, after its parents if one of them is missing. -/
def createFirst (tree : Tree) : List String → Except PathFault Unit × Tree
  | [] => (.ok (), tree)
  | path :: parents =>
    match tree.createDirectory path with
    | .ok tree => (.ok (), tree)
    | .error .missing =>
      match tree.createFirst parents with
      | (.error fault, tree) => (.error fault, tree)
      | (.ok _, tree) =>
        match tree.createDirectory path with
        | .ok tree => (.ok (), tree)
        | .error fault => tree.acceptDirectory path fault
    | .error fault => tree.acceptDirectory path fault

/-- Creates a directory and all its parents, as far as they are missing. -/
def createDirectories (tree : Tree) (path : String) : Except PathFault Unit × Tree :=
  tree.createFirst (Path.withParents path)

/-- The tree with a file of this content, new or in place of an older one. -/
def write (tree : Tree) (path : String) (content : Bytes) : Except PathFault Tree := do
  let spot ← tree.spot path
  if !spot.isNamed || spot.endsInSlash then throw .isDirectory
  match tree.lookup spot.location with
  | some .directory => throw .isDirectory
  | some (.sealed _) => throw .forbidden
  | _ => return tree.put spot.location (.file content)

/-- The tree with the file at a place moved over the one to which a path leads. -/
def moveOver (tree : Tree) (source : Location) (path : String) : Except PathFault Tree := do
  if path.toList.contains '\x00' then throw .invalid
  let spot ← tree.spot path
  if !spot.isNamed then throw .busy
  if spot.endsInSlash then throw .notDirectory
  match tree.lookup source, tree.lookup spot.location with
  | none, _ => throw .missing
  | some _, some .directory => throw .isDirectory
  | some entry, _ => return (tree.remove source).put spot.location entry

end DocPipeline.Tree
