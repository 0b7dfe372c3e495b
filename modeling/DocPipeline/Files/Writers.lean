import DocPipeline.Files.Replace

/-! Several writers of one file. Each writes its own content all at once, in steps that may come
between those of the others: it creates the parents that are missing, opens a temporary file under a
name that nothing there has, fills it, has it stored and moves it over the target. Any of these
steps may fail, and a writer that fails removes its temporary file.
-/

namespace DocPipeline

/-- The tree with an empty temporary file of this name in a directory, and the place of that file.
There is none if something in the directory has the name already.
-/
def Tree.openTemporary (tree : Tree) (directory : String) (name : Name)
    : Except PathFault (Option (Location × Tree)) := do
  let spot ← tree.spot directory
  if tree.hasDirectory spot.location then
    let location := spot.location ++ [name]
    if (tree.lookup location).isSome then return none
    return some (location, tree.put location (.file []))
  else throw .notDirectory

/-- How far a writer has come. -/
inductive Stage where
  | waiting
  /-- The directory of the file is there. -/
  | housed
  /-- The temporary file is there, and empty. -/
  | opened (temporary : Location)
  /-- The temporary file has the whole content. -/
  | filled (temporary : Location)
  /-- So it has, for good. -/
  | stored (temporary : Location)
  /-- The temporary file has taken the place of the target. -/
  | moved
  /-- A step has failed, and the temporary file is still there. -/
  | failing (temporary : Location) (reason : String)
  /-- The writer has returned. -/
  | done
  /-- The writer has returned a failure. -/
  | failed (failure : Failure)
deriving DecidableEq

/-- The turn of one writer to make its next step. -/
structure Writing.Turn (ι : Type) where
  writer : ι
  /-- The name for a temporary file that is opened in this step. -/
  name : Name
  /-- Why the step fails, if it does although nothing in the tree stands against it. -/
  fault : Option String
  /-- How much of the step is done before it fails. -/
  reach : Nat

namespace Stage

/-- The temporary file of the writer has just taken the place of the target. -/
def isMoved : Stage → Bool
  | moved => true
  | _ => false

/-- A writer that cannot go on. It returns, unless it has a temporary file to remove first. -/
def stop (path reason : String) : Stage → Stage
  | opened temporary | filled temporary | stored temporary => failing temporary reason
  | _ => failed (.writeFailed path reason)

/-- The next step of a writer. One that fails may have created some of the parents, the highest ones
first, or may have written the beginning of the content.
-/
def next {ι : Type} (path : String) (content : Bytes) (turn : Writing.Turn ι)
    (tree : Tree) : Stage → Stage × Tree
  | waiting =>
    match turn.fault with
    | some reason =>
      let parents := Path.withParents (Tree.directoryFor path)
      let created := tree.createFirst (parents.drop (parents.length - turn.reach))
      (stop path reason waiting, created.2)
    | none =>
      match tree.createDirectories (Tree.directoryFor path) with
      | (.ok _, tree) => (housed, tree)
      | (.error fault, tree) => (stop path fault.message waiting, tree)
  | housed =>
    match turn.fault with
    | some reason => (stop path reason housed, tree)
    | none =>
      match tree.openTemporary (Tree.directoryFor path) turn.name with
      | .ok (some (temporary, tree)) => (opened temporary, tree)
      | .ok none => (housed, tree)
      | .error fault => (stop path fault.message housed, tree)
  | opened temporary =>
    match turn.fault with
    | some reason =>
      let written := tree.put temporary (.file (content.take turn.reach))
      (stop path reason (opened temporary), written)
    | none => (filled temporary, tree.put temporary (.file content))
  | filled temporary =>
    match turn.fault with
    | some reason => (stop path reason (filled temporary), tree)
    | none => (stored temporary, tree)
  | stored temporary =>
    match turn.fault with
    | some reason => (stop path reason (stored temporary), tree)
    | none =>
      match tree.moveOver temporary path with
      | .ok tree => (moved, tree)
      | .error fault => (stop path fault.message (stored temporary), tree)
  | moved => (done, tree)
  | failing temporary reason => (failed (.writeFailed path reason), tree.remove temporary)
  | done => (done, tree)
  | failed failure => (failed failure, tree)

end Stage

/-- A tree and the writers that are at work in it. -/
structure Writing (ι : Type) where
  tree : Tree
  stage : ι → Stage
  /-- The writers whose files have taken the target's place, the last one first. -/
  moves : List ι

namespace Writing

/-- No writer has begun. -/
def start {ι : Type} (tree : Tree) : Writing ι :=
  ⟨tree, fun _ => .waiting, []⟩

variable {ι : Type} [DecidableEq ι]

/-- One writer makes its next step, while the others stay where they are. -/
def step (path : String) (texts : ι → String) (state : Writing ι) (turn : Turn ι)
    : Writing ι :=
  let content := Text.Utf8.encode (texts turn.writer)
  let (stage, tree) := (state.stage turn.writer).next path content turn state.tree
  { tree,
    stage := fun other => if other = turn.writer then stage else state.stage other,
    moves := if stage.isMoved then turn.writer :: state.moves else state.moves }

/-- The writers make their steps in the order of their turns. -/
def run (path : String) (texts : ι → String) (state : Writing ι) (turns : List (Turn ι))
    : Writing ι :=
  turns.foldl (step path texts) state

end Writing
end DocPipeline
