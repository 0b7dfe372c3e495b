import DocPipeline.Files.Path
import DocPipeline.Text.Utf8

/-! Files and directories in a tree. Every place in it is given by the names on the way from the
root, so looking up, putting and removing an entry need no path.
-/

namespace DocPipeline

/-- The names on the way from the root. -/
abbrev Location := List Name

/-- What stands at a place. -/
inductive Entry where
  | directory
  | file (content : Bytes)
  /-- A file that may neither be read nor written. It may still be replaced by another one. -/
  | sealed (content : Bytes)
deriving DecidableEq, Repr

/-- A tree of files, with the directory in which relative paths begin. -/
structure Tree where
  home : Location
  /-- Everything but the root, which is always there. -/
  entries : List (Location × Entry)
deriving DecidableEq, Repr

namespace Tree

/-- What stands at a place. -/
def lookup (tree : Tree) (location : Location) : Option Entry :=
  if location = [] then some .directory
  else (tree.entries.find? (·.1 = location)).map (·.2)

/-- There is a directory at the place. -/
def hasDirectory (tree : Tree) (location : Location) : Bool :=
  tree.lookup location = some .directory

/-- The tree with an entry in place of what stood there. -/
def put (tree : Tree) (location : Location) (entry : Entry) : Tree :=
  { tree with entries := (location, entry) :: tree.entries.filter (·.1 != location) }

/-- The tree without the entry at a place and everything below it. -/
def remove (tree : Tree) (location : Location) : Tree :=
  { tree with entries := tree.entries.filter (!location.isPrefixOf ·.1) }

/-- The names of the entries directly inside a directory. -/
def namesIn (tree : Tree) (location : Location) : List Name :=
  tree.entries.filterMap fun entry =>
    if entry.1.dropLast = location then entry.1.getLast? else none

/-- A name for a temporary entry of a directory. It is longer than every name there, so it is the
name of nothing.
-/
def freshName (tree : Tree) (location : Location) : Name :=
  let length := ((tree.namesIn location).map List.length).foldl max 0
  ".tmp".toList ++ List.replicate (length + 1) '0'

/-- The place of a temporary entry in a directory. -/
def freshLocation (tree : Tree) (location : Location) : Location :=
  location ++ [tree.freshName location]

end Tree
end DocPipeline
