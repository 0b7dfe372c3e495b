import DocPipeline.Failure
import DocPipeline.Files.Change
import DocPipeline.Web.Traffic

/-! Fetching a document from the web into a file. The whole body arrives before the first change
is made to the tree, so a fetch that fails on the way leaves no trace.
-/

namespace DocPipeline.Download

/-- A fault of the transfer as a failure of the run. -/
def failure (url : String) (seconds : Nat) (fault : Web.Fault) : Failure :=
  if fault.isLate then .downloadTimedOut url seconds else .downloadFailed url fault.message

/-- The body of the answer that an address gives in the end. -/
def fetch (peer : Web.Peer) (seconds : Nat) (url : String) (traffic : Web.Traffic)
    : Except Failure Bytes × Web.Traffic :=
  match Url.parse url with
  | .error _ => (.error (failure url seconds .badAddress), traffic)
  | .ok address =>
    match Web.send peer .get address .nothing traffic with
    | (.error fault, traffic) => (.error (failure url seconds fault), traffic)
    | (.ok answer, traffic) =>
      if Web.Code.isSuccess answer.code then
        (answer.wholeBody.mapError (failure url seconds), traffic)
      else (.error (.downloadFailed url ("HTTP " ++ Web.Code.text answer.code)), traffic)

/-- Keeps a body in a file, after creating the parents that are missing. -/
def store (path : String) (body : Bytes) (tree : Tree) : Except Failure Unit × Tree :=
  match tree.createDirectories (Path.parent path) with
  | (.error fault, tree) => (.error (.writeFailed path fault.message), tree)
  | (.ok _, tree) =>
    match tree.write path body with
    | .error fault => (.error (.writeFailed path fault.message), tree)
    | .ok tree => (.ok (), tree)

/-- Fetches what is at an address into a file; the result is the number of bytes. -/
def toFile (peer : Web.Peer) (seconds : Nat) (url path : String) (tree : Tree)
    (traffic : Web.Traffic) : Except Failure Nat × Tree × Web.Traffic :=
  match fetch peer seconds url traffic with
  | (.error failure, traffic) => (.error failure, tree, traffic)
  | (.ok body, traffic) =>
    let (result, tree) := store path body tree
    (result.map fun _ => body.length, tree, traffic)

end DocPipeline.Download
