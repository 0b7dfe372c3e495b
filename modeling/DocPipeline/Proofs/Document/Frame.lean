import DocPipeline.Document.Basic
import DocPipeline.Proofs.Files.Frame
import DocPipeline.Proofs.Url.FileName

/-! What getting a document changes of the tree. A document that is fetched to be kept leaves its
file and the directories on the way to it; nothing is left of one that is fetched for a single run
when the run is over.
-/

namespace DocPipeline

variable {tree : Tree} {way file : Location → Prop}

-----------------------------------------------------------------------------------------
-- Downloads
-----------------------------------------------------------------------------------------

namespace Download

/-- Creating the parents of a file adds directories on the way to it. -/
theorem parents_become (sound : tree.Sound) (path : String)
    : tree.Becomes (tree.createDirectories (Path.parent path)).2 (tree.OnWay path) file :=
  Tree.createFirst_becomes sound fun _ member => Tree.onWay_of_mem_withParents member

/-- Storing a body creates directories on the way to its file, and then writes that file. -/
theorem store_becomes (sound : tree.Sound) (path : String) (body : Bytes)
    : tree.Becomes (store path body tree).2 (tree.OnWay path) (· = tree.placeOf path) := by
  have parents : tree.Becomes _ (tree.OnWay path) (· = tree.placeOf path) :=
    parents_become sound path
  unfold store
  rcases created : tree.createDirectories (Path.parent path) with ⟨result, between⟩
  rw [created] at parents
  cases result with
  | error fault => exact parents
  | ok _ =>
      dsimp only at parents ⊢
      cases written : between.write path body with
      | error fault => exact parents
      | ok after =>
          have last : between.Becomes after (tree.OnWay path) (· = between.placeOf path) :=
            Tree.write_becomes parents.sound written
          rw [Tree.placeOf_of_home parents.home] at last
          exact parents.trans last

theorem toFile_becomes (sound : tree.Sound) (peer : Web.Peer) (seconds : Nat) (url path : String)
    (traffic : Web.Traffic)
    : tree.Becomes (toFile peer seconds url path tree traffic).2.1 (tree.OnWay path)
        (· = tree.placeOf path) := by
  unfold toFile
  rcases fetch peer seconds url traffic with ⟨result, traffic⟩
  cases result with
  | error failure => exact .refl sound
  | ok body => exact store_becomes sound path body

end Download

-----------------------------------------------------------------------------------------
-- Documents
-----------------------------------------------------------------------------------------

namespace Document

/-- A temporary path is made of the names of its directory and its file. -/
theorem temporaryPath_eq {directory name : Name} (inside : Path.IsName directory)
    {fileName : String} (spelled : fileName.toList = name) (named : Path.IsName name)
    : temporaryPath [directory] fileName = Path.ofNames true [directory, name] := by
  obtain ⟨c, cs, rfl⟩ := List.exists_cons_of_ne_nil named.spoken
  have relative : Path.isAbsolute fileName = false := by
    have other : c ≠ '/' := fun same => named.single (same ▸ List.mem_cons_self)
    simp [Path.isAbsolute, spelled, other]
  have text : (Path.ofNames true [directory]).toList = '/' :: directory := by
    simp [Path.ofNames, Text.joinWith]
  have further : (Path.ofNames true [directory]).isEmpty = false := by
    simp [← Bool.not_eq_true, String.isEmpty_iff, ← String.toList_inj, text]
  have open' : (Path.ofNames true [directory]).toList.getLast? ≠ some '/' := by
    rw [text]
    intro last
    obtain ⟨front, same⟩ := List.getLast?_eq_some_iff.mp last
    cases front with
    | nil => exact inside.spoken (List.cons.inj same).2
    | cons _ front =>
        have member : '/' ∈ front ++ ['/'] := by simp
        exact inside.single ((List.cons.inj same).2 ▸ member)
  unfold temporaryPath Path.join
  rw [relative, further, if_neg (by simp), if_neg open', ← String.toList_inj]
  simp [spelled, Path.ofNames, Text.joinWith, List.intercalate]

/-- The path under which the document of an input is kept, if it is fetched to be kept. -/
def keptPath? (workDir : Option String) (input : String) : Option String :=
  if Url.isWebAddress input then
    workDir.map fun directory => Path.join directory (Url.fileName input)
  else none

/-- The place lies on the way to the file of a document that is kept. -/
def OnWayToKept (tree : Tree) (workDir : Option String) (input : String) (place : Location)
    : Prop :=
  ∃ path, keptPath? workDir input = some path ∧ tree.OnWay path place

/-- The place is the one of the file of a document that is kept. -/
def IsKept (tree : Tree) (workDir : Option String) (input : String) (place : Location) : Prop :=
  ∃ path, keptPath? workDir input = some path ∧ place = tree.placeOf path

/-- A fetch into a temporary directory leaves nothing when that directory is removed, since whatever
it creates is inside.
-/
theorem becomes_of_temporary (sound : tree.Sound) (peer : Web.Peer) (seconds : Nat)
    (url name : String) (traffic : Web.Traffic) (named : Path.IsName name.toList)
    (below : name.toList ≠ Path.above)
    : let directory := tree.freshLocation []
      let fetched := Download.toFile peer seconds url (temporaryPath directory name)
        (tree.put directory .directory) traffic
      tree.Becomes (fetched.2.1.remove directory) way file := by
  intro directory fetched
  have vacant : tree.lookup directory = none := tree.lookup_freshLocation []
  obtain ⟨valid, own⟩ := tree.isName_freshName []
  have names : ∀ part ∈ [tree.freshName [], name.toList], Path.IsName part := by
    simp [valid, named]
  have path : temporaryPath directory name = Path.ofNames true [tree.freshName [], name.toList] :=
    temporaryPath_eq valid rfl named
  have created : (tree.put directory .directory).Sound :=
    sound.put_fresh .directory tree.lookup_root
  have changed := Download.toFile_becomes created peer seconds url (temporaryPath directory name)
    traffic
  refine Tree.becomes_of_remove sound vacant changed.sound changed.home fun other apart => ?_
  have elsewhere : other ≠ directory := fun same => apart (same ▸ List.prefix_rfl)
  rw [← Tree.lookup_put_of_ne tree .directory elsewhere]
  refine changed.lookup_eq ?_ ?_
  · rintro ⟨front, shorter, rfl⟩ vacant
    have start : (tree.put directory .directory).startOf (temporaryPath directory name) = [] := by
      rw [path, Tree.startOf, Path.isAbsolute_ofNames true names]
      rfl
    rw [path, Path.names_ofNames true names] at shorter
    rw [start] at vacant apart
    cases front with
    | nil => cases vacant
    | cons first rest =>
        obtain ⟨rfl, nothing⟩ := List.cons_prefix_cons.mp shorter
        obtain rfl := List.prefix_nil.mp nothing
        rw [Location.follow, if_neg own] at apart
        exact apart List.prefix_rfl
  · intro target
    rw [path, Tree.placeOf_ofNames _ true names, if_pos rfl,
      Location.follow_of_plain [] (by simp [Ne.symm own, Ne.symm below])] at target
    exact apart ⟨[name.toList], target.symm⟩

/-- Whatever becomes of the document of an input, the tree is in the end as it was, except for a
file that is kept and the directories on the way to it; by cases on what the input names and where
its document goes.
-/
theorem resolve_becomes (sound : tree.Sound) (peer : Web.Peer) (seconds : Nat)
    (workDir : Option String) (input : String) (traffic : Web.Traffic)
    : match resolve peer seconds workDir input tree traffic with
      | (.ok document, after, _) =>
        tree.Becomes (document.release after) (OnWayToKept tree workDir input)
          (IsKept tree workDir input)
      | (.error _, after, _) =>
        tree.Becomes after (OnWayToKept tree workDir input) (IsKept tree workDir input) := by
  unfold resolve
  by_cases web : Url.isWebAddress input = true
  · rw [if_pos web]
    unfold atAddress
    cases workDir with
    | some directory =>
        have kept : keptPath? (some directory) input
            = some (Path.join directory (Url.fileName input)) := by
          rw [keptPath?, if_pos web]
          rfl
        have fetched : tree.Becomes _ (OnWayToKept tree (some directory) input)
            (IsKept tree (some directory) input) :=
          (Download.toFile_becomes sound peer seconds input
            (Path.join directory (Url.fileName input)) traffic).mono
            (fun place onWay => ⟨_, kept, onWay⟩) (fun place target => ⟨_, kept, target⟩)
        dsimp only
        rcases toFile : Download.toFile peer seconds input
          (Path.join directory (Url.fileName input)) tree traffic with ⟨result, after, traffic⟩
        rw [toFile] at fetched
        cases result <;> exact fetched
    | none =>
        obtain ⟨named, below⟩ := Url.fileName_isName input
        have fetched : tree.Becomes _ (OnWayToKept tree none input) (IsKept tree none input) :=
          becomes_of_temporary sound peer seconds input (Url.fileName input) traffic named below
        dsimp only at fetched ⊢
        rcases toFile : Download.toFile peer seconds input
          (temporaryPath (tree.freshLocation []) (Url.fileName input))
          (tree.put (tree.freshLocation []) .directory) traffic with ⟨result, after, traffic⟩
        rw [toFile] at fetched
        cases result <;> exact fetched
  · rw [if_neg web]
    by_cases there : tree.isFile input = true
    · rw [atPath, if_pos there]
      cases content input tree <;> exact .refl sound
    · rw [atPath, if_neg there]
      exact .refl sound

end Document
end DocPipeline
