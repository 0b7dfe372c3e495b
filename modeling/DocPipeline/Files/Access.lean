import DocPipeline.Files.Tree

/-! Following a path through a tree, and reading what it leads to. Every name on the way must be
the one of a directory; about the last name nothing is said until it is used.
-/

namespace DocPipeline

/-- Why a path cannot be used as wanted. -/
inductive PathFault where
  | missing | forbidden | exists | notDirectory | isDirectory | busy | invalid | nameTooLong
  | zeroInside
deriving DecidableEq, Repr

/-- The text in which a fault is reported. -/
def PathFault.message : PathFault → String
  | missing => "No such file or directory (os error 2)"
  | forbidden => "Permission denied (os error 13)"
  | busy => "Device or resource busy (os error 16)"
  | PathFault.exists => "File exists (os error 17)"
  | notDirectory => "Not a directory (os error 20)"
  | isDirectory => "Is a directory (os error 21)"
  | invalid => "Invalid argument (os error 22)"
  | nameTooLong => "File name too long (os error 36)"
  | zeroInside => "file name contained an unexpected NUL byte"

/-- Where a path leads. -/
structure Spot where
  location : Location
  /-- The last step of the path is a name of its own. -/
  isNamed : Bool
  /-- A slash stands behind the last step. -/
  endsInSlash : Bool
deriving DecidableEq, Repr

namespace Tree

/-- The largest number of bytes in a name. -/
def longestName : Nat := 255

/-- The number of bytes that no path reaches. -/
def pathLimit : Nat := 4096

/-- The name has too many bytes. -/
def isTooLong (name : Name) : Bool :=
  longestName < (String.ofList name).utf8ByteSize

/-- One step from a directory to the next one. -/
def enter (tree : Tree) (location : Location) (name : Name) : Except PathFault Location :=
  if name = Path.here then .ok location
  else if name = Path.above then .ok location.dropLast
  else if isTooLong name then .error .nameTooLong
  else
    match tree.lookup (location ++ [name]) with
    | none => .error .missing
    | some .directory => .ok (location ++ [name])
    | some _ => .error .notDirectory

/-- One step after the other, from a directory to a directory. -/
def walk (tree : Tree) (location : Location) : List Name → Except PathFault Location
  | [] => .ok location
  | name :: rest => do
    let location ← tree.enter location name
    tree.walk location rest

/-- The last step, to a place at which there may be nothing. -/
def lastStep (location : Location) (name : Name) (endsInSlash : Bool)
    : Except PathFault Spot :=
  if name = Path.here then .ok ⟨location, false, endsInSlash⟩
  else if name = Path.above then .ok ⟨location.dropLast, false, endsInSlash⟩
  else if isTooLong name then .error .nameTooLong
  else .ok ⟨location ++ [name], true, endsInSlash⟩

/-- Where a path leads. -/
def spot (tree : Tree) (path : String) : Except PathFault Spot := do
  if path.toList.contains '\x00' then throw .zeroInside
  if path.isEmpty then throw .missing
  if pathLimit ≤ path.utf8ByteSize then throw .nameTooLong
  let start := if Path.isAbsolute path then [] else tree.home
  let endsInSlash := path.toList.getLast? = some '/'
  match (Path.steps path).getLast? with
  | none => return ⟨start, false, endsInSlash⟩
  | some name =>
    let location ← tree.walk start (Path.steps path).dropLast
    lastStep location name endsInSlash

/-- What a path leads to. -/
def entryAt (tree : Tree) (path : String) : Except PathFault Entry := do
  let spot ← tree.spot path
  match tree.lookup spot.location with
  | none => throw .missing
  | some .directory => return .directory
  | some entry => if spot.endsInSlash then throw .notDirectory else return entry

/-- The path leads to a file, whether or not it may be read. -/
def isFile (tree : Tree) (path : String) : Bool :=
  match tree.entryAt path with
  | .ok (.file _) | .ok (.sealed _) => true
  | _ => false

/-- The path leads to a directory. -/
def isDirectory (tree : Tree) (path : String) : Bool :=
  match tree.entryAt path with
  | .ok .directory => true
  | _ => false

/-- The content of the file to which a path leads. -/
def read (tree : Tree) (path : String) : Except PathFault Bytes := do
  match ← tree.entryAt path with
  | .file content => return content
  | .sealed _ => throw .forbidden
  | .directory => throw .isDirectory

end Tree
end DocPipeline
