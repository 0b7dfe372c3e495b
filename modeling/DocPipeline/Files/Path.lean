import DocPipeline.Text.Split

/-! Paths as texts. A path is a list of names between slashes; what stands for nothing, an empty
name or a single point, is not counted among them.
-/

namespace DocPipeline

/-- A name of a file or directory. -/
abbrev Name := List Char

namespace Path

/-- The name of the directory itself. -/
def here : Name := ['.']

/-- The name of the directory above. -/
def above : Name := ['.', '.']

/-- The path starts at the root. -/
def isAbsolute (path : String) : Bool :=
  path.toList.head? = some '/'

/-- The parts of a path that are not empty, those of points included. -/
def steps (path : String) : List Name :=
  (Text.splitAt '/' path.toList).filter (!·.isEmpty)

/-- The names of a path. -/
def names (path : String) : List Name :=
  (steps path).filter (· != here)

/-- The path from the root, or from wherever one is, along the names. -/
def ofNames (absolute : Bool) (names : List Name) : String :=
  String.ofList ((if absolute then ['/'] else []) ++ Text.joinWith '/' names)

/-- The path without its last name. A path of at most one name leads nowhere without it. -/
def parent (path : String) : String :=
  ofNames (isAbsolute path) (names path).dropLast

/-- All parents that a list of names has, the longest one first. -/
def parentsOf (absolute : Bool) (names : List Name) : List String :=
  (List.range names.length).reverse.map fun n => ofNames absolute (names.take n)

/-- A path and all its parents, as far as they lead anywhere, the longest one first. -/
def withParents (path : String) : List String :=
  (path :: parentsOf (isAbsolute path) (names path)).filter (!·.isEmpty)

/-- The last name of a path, unless it is the one of the directory above. -/
def fileName? (path : String) : Option Name :=
  (names path).getLast?.filter (· != above)

/-- What stands behind the last point of a name that does not begin with it. -/
def extension? (name : Name) : Option (List Char) :=
  let tail := (name.reverse.takeWhile (· != '.')).reverse
  if tail.length + 1 < name.length then some tail else none

/-- The path of a name in a directory. -/
def join (directory name : String) : String :=
  if isAbsolute name || directory.isEmpty then name
  else if directory.toList.getLast? = some '/' then directory ++ name
  else directory ++ "/" ++ name

end Path
end DocPipeline
