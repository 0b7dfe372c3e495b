import DocPipeline.Document.Download
import DocPipeline.Url.Route

/-! The document of a run as a file. A document on the web is fetched into the work directory, or
into a temporary one that is removed when the run is over.
-/

namespace DocPipeline

/-- Where the file of a document is. -/
inductive Document where
  /-- The file was there before. -/
  | present (path : String)
  /-- The file was fetched and is kept. -/
  | kept (path : String) (bytes : Nat)
  /-- The file was fetched into a directory that has to be removed. -/
  | temporary (path : String) (bytes : Nat) (directory : Location)
deriving DecidableEq, Repr

namespace Document

/-- The path of the file. -/
def path : Document → String
  | present path => path
  | kept path _ => path
  | temporary path _ _ => path

/-- How many bytes were fetched. -/
def downloadedBytes : Document → Nat
  | present _ => 0
  | kept _ bytes => bytes
  | temporary _ bytes _ => bytes

/-- The tree without what was there for this document only. -/
def release (document : Document) (tree : Tree) : Tree :=
  match document with
  | temporary _ _ directory => tree.remove directory
  | _ => tree

/-- Why a file that is to be sent cannot be read. -/
def unreadable (path : String) : PathFault → Failure
  | .forbidden => .inputForbidden path
  | _ => .inputMissing path

/-- The content of a file that is to be sent. -/
def content (path : String) (tree : Tree) : Except Failure Bytes :=
  (tree.read path).mapError (unreadable path)

/-- The document in a file that must be there and that may be read. -/
def atPath (path : String) (tree : Tree) : Except Failure Document :=
  if tree.isFile path then (content path tree).map fun _ => .present path
  else .error (.inputMissing path)

/-- The path of a temporary file, from the root. -/
def temporaryPath (directory : Location) (name : String) : String :=
  Path.join (Path.ofNames true directory) name

/-- The document at an address, fetched into the work directory or a temporary one. -/
def atAddress (peer : Web.Peer) (seconds : Nat) (workDir : Option String) (url : String)
    (tree : Tree) (traffic : Web.Traffic) : Except Failure Document × Tree × Web.Traffic :=
  let name := Url.fileName url
  match workDir with
  | some directory =>
    let path := Path.join directory name
    let (result, tree, traffic) := Download.toFile peer seconds url path tree traffic
    (result.map (.kept path), tree, traffic)
  | none =>
    let directory := tree.freshLocation []
    let path := temporaryPath directory name
    match Download.toFile peer seconds url path (tree.put directory .directory) traffic with
    | (.ok bytes, tree, traffic) => (.ok (.temporary path bytes directory), tree, traffic)
    | (.error failure, tree, traffic) => (.error failure, tree.remove directory, traffic)

/-- The document that an input names: an address on the web, or else a path. -/
def resolve (peer : Web.Peer) (seconds : Nat) (workDir : Option String) (input : String)
    (tree : Tree) (traffic : Web.Traffic) : Except Failure Document × Tree × Web.Traffic :=
  if Url.isWebAddress input then atAddress peer seconds workDir input tree traffic
  else (atPath input tree, tree, traffic)

/-- The size of the file. -/
def size (document : Document) (tree : Tree) : Except Failure Nat :=
  match tree.entryAt document.path with
  | .ok (.file content) | .ok (.sealed content) => .ok content.length
  | .ok .directory => .ok 0
  | .error _ => .error (.inputMissing document.path)

end Document
end DocPipeline
