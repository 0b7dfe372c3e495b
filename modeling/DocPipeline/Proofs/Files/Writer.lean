import DocPipeline.Files.Writers
import DocPipeline.Proofs.Files.Entry

/-! One writer of a file among others. Whatever step it makes, and whether or not the step fails, it
changes its own temporary file, the directories on the way to the target, and the target when the
temporary file takes its place. A writer that is alone writes the file all at once.
-/

namespace DocPipeline

open Location (follow)
open DocPipeline.Path (IsName)

-----------------------------------------------------------------------------------------
-- Temporary files beside the target
-----------------------------------------------------------------------------------------

namespace Tree

variable {tree after : Tree} {path : String} {place : Location} {name : Name} {content : Bytes}

/-- The directory for the file of a path is where the names before the last one lead. -/
theorem placeOf_directoryFor (tree : Tree) (path : String)
    : tree.placeOf (directoryFor path) = follow (tree.startOf path) (Path.names path).dropLast := by
  have valid : ∀ name ∈ (Path.names path).dropLast, IsName name := fun name inside =>
    Path.isName_of_mem_names (List.dropLast_subset _ inside)
  have parent : tree.placeOf (Path.parent path)
      = follow (tree.startOf path) (Path.names path).dropLast :=
    placeOf_ofNames tree _ valid
  unfold directoryFor
  by_cases bare : (Path.parent path).isEmpty = true
  · rw [if_pos bare, ← parent, String.isEmpty_iff.mp bare]
    rfl
  · rw [if_neg bare, parent]

/-- What stands beside the target under another name is not the target. -/
theorem beside_ne_placeOf (tree : Tree) (other : Path.fileName? path ≠ some name)
    : tree.placeOf (directoryFor path) ++ [name] ≠ tree.placeOf path := by
  rw [placeOf_directoryFor, placeOf]
  intro same
  rcases List.eq_nil_or_concat (Path.names path) with bare | ⟨front, last, names⟩
  · rw [bare] at same
    simp [follow] at same
  · rw [names, List.concat_eq_append, List.dropLast_concat, Location.follow_append] at same
    by_cases back : last = Path.above
    · have lengths := congrArg List.length same
      simp [follow, back] at lengths
      omega
    · rw [follow, if_neg back] at same
      obtain ⟨_, named⟩ := List.append_inj' same rfl
      refine other ?_
      rw [Path.fileName?, names, List.concat_eq_append, List.getLast?_concat]
      simpa [Option.filter, back] using (List.singleton_inj.mp named).symm

theorem openTemporary_cases {directory : String} {opened : Option (Location × Tree)}
    (done : tree.openTemporary directory name = .ok opened)
    : opened = none
      ∨ tree.lookup (tree.placeOf directory) = some .directory
        ∧ tree.lookup (tree.placeOf directory ++ [name]) = none
        ∧ opened = some (tree.placeOf directory ++ [name],
            tree.put (tree.placeOf directory ++ [name]) (.file [])) := by
  obtain ⟨spot, found, done⟩ := Except.exists_of_bind_eq_ok done
  rw [spot_location found] at done
  by_cases inside : tree.hasDirectory (tree.placeOf directory) = true
  · rw [if_pos inside] at done
    by_cases taken : (tree.lookup (tree.placeOf directory ++ [name])).isSome = true
    · rw [if_pos taken] at done
      exact .inl (Except.ok.inj done).symm
    · rw [if_neg taken] at done
      exact .inr ⟨of_decide_eq_true inside, by simpa using taken, (Except.ok.inj done).symm⟩
  · rw [if_neg inside] at done
    cases done

/-- Under the name that a writer takes who is alone, it is the same as creating a temporary file. -/
theorem openTemporary_freshName (tree : Tree) (directory : String)
    : tree.openTemporary directory (tree.freshName (tree.placeOf directory))
      = (tree.createTemporary directory).map some := by
  unfold openTemporary createTemporary
  cases found : tree.spot directory with
  | error fault => rfl
  | ok spot =>
      rw [← spot_location found, Except.ok_bind, Except.ok_bind, ← freshLocation]
      dsimp only
      rw [lookup_freshLocation]
      split <;> rfl

theorem ne_root_of_file (here : tree.lookup place = some (.file content)) : place ≠ [] := by
  rintro rfl
  cases here

/-- Putting another content into a file keeps a tree sound. -/
theorem Sound.put_file (sound : tree.Sound) (bytes : Bytes)
    (here : tree.lookup place = some (.file content)) : (tree.put place (.file bytes)).Sound := by
  rcases List.eq_nil_or_concat place with rfl | ⟨directory, name, rfl⟩
  · cases here
  · rw [List.concat_eq_append] at here ⊢
    exact sound.put _ (sound.parent directory name (by simp [here])) (by simp [here])

/-- A file is all that a tree has over the one without it, since nothing stands below a file. -/
theorem holds_of_file (sound : tree.Sound) (here : tree.lookup place = some (.file content))
    : (tree.remove place).Sound ∧ (tree.remove place).Holds tree place content := by
  have inside := ne_root_of_file here
  have below {other : Location} (below : place <+: other) (apart : other ≠ place)
      : tree.lookup other = none :=
    sound.lookup_below (by simp [here]) below apart
  refine ⟨sound.remove fun above => ?_, ⟨?_, rfl, sound, here, fun other apart => ?_⟩⟩
  · have home := sound.home
    by_cases same : tree.home = place
    · rw [same, here] at home
      cases home
    · rw [below above same] at home
      cases home
  · exact lookup_remove_below tree List.prefix_rfl inside
  · by_cases above : place <+: other
    · rw [lookup_remove_below tree above (by rintro rfl; exact inside (List.prefix_nil.mp above)),
        below above apart]
    · rw [lookup_remove_elsewhere tree above]

end Tree

-----------------------------------------------------------------------------------------
-- One step of one writer
-----------------------------------------------------------------------------------------

namespace Stage

variable {ι : Type} {path : String} {content bytes : Bytes} {tree after : Tree} {before now : Stage}
  {place : Location}

/-- The place of the temporary file that a writer has. -/
def temporary? : Stage → Option Location
  | opened temporary | filled temporary | stored temporary | failing temporary _ => some temporary
  | waiting | housed | moved | done | failed _ => none

/-- The whole content is in the temporary file. -/
def hasFilled : Stage → Bool
  | filled _ | stored _ => true
  | _ => false

/-- The temporary file has taken the place of the target, now or before. -/
def hasMoved : Stage → Bool
  | moved | done => true
  | _ => false

/-- The writer has nothing under way: it has not begun, or it has returned. -/
def rests : Stage → Bool
  | waiting | done | failed _ => true
  | _ => false

theorem temporary?_of_rests (rests : now.rests = true) : now.temporary? = none := by
  cases now <;> first | rfl | cases rests

/-- The temporary file of a writer is there, beside the target, with the whole content once it has
been filled.
-/
structure Owns (path : String) (content : Bytes) (tree : Tree) (stage : Stage) (place : Location)
    : Prop where
  beside : place ≠ tree.placeOf path
  holds : ∃ bytes, tree.lookup place = some (.file bytes)
    ∧ (stage.hasFilled = true → bytes = content)

theorem Owns.mono (owns : Owns path content tree before place)
    (filled : now.hasFilled = true → before.hasFilled = true)
    : Owns path content tree now place := by
  obtain ⟨beside, bytes, here, whole⟩ := owns
  exact ⟨beside, bytes, here, fun now => whole (filled now)⟩

/-- What one step of a writer may do to the tree. A temporary file that it opens stands where
nothing was, and one that it gives up is gone. Elsewhere only directories on the way to the target
are new, and the target itself changes only when the temporary file takes its place.
-/
structure Advances (path : String) (content : Bytes) (tree after : Tree) (before now : Stage)
    : Prop where
  home : after.home = tree.home
  sound : after.Sound
  opened : ∀ place, now.temporary? = some place
    → before.temporary? = some place ∨ tree.lookup place = none
  owns : ∀ place, now.temporary? = some place → Owns path content after now place
  gone : ∀ place, before.temporary? = some place
    → now.temporary? = some place ∨ after.lookup place = none
  elsewhere : ∀ place, before.temporary? ≠ some place → now.temporary? ≠ some place
    → Tree.Fate (tree.lookup place) (after.lookup place) (tree.OnWay path place)
        (place = tree.placeOf path ∧ now.isMoved = true)
  moved : now.isMoved = true → after.read path = .ok content

namespace Advances

/-- A step that leaves the tree alone, and the temporary file with the writer. -/
theorem stay (sound : tree.Sound) (temporary : now.temporary? = before.temporary?)
    (owns : ∀ place, now.temporary? = some place → Owns path content tree now place)
    (still : now.isMoved = false) : Advances path content tree tree before now where
  home := rfl
  sound := sound
  opened := fun _ has => .inl (temporary ▸ has)
  owns := owns
  gone := fun _ had => .inl (temporary.trans had)
  elsewhere := fun _ _ _ => .same rfl
  moved := fun moved => by simp [still] at moved

/-- A step that creates directories, by a writer that has no temporary file. -/
theorem prepare (becomes : tree.Becomes after (tree.OnWay path) (fun _ => False))
    (without : before.temporary? = none) (still : now.temporary? = none ∧ now.isMoved = false)
    : Advances path content tree after before now where
  home := becomes.home
  sound := becomes.sound
  opened := fun _ has => by simp [still.1] at has
  owns := fun _ has => by simp [still.1] at has
  gone := fun _ had => by simp [without] at had
  elsewhere := fun place _ _ => (becomes.fate place).mono id False.elim
  moved := fun moved => by simp [still.2] at moved

/-- A step that writes into the temporary file, which may be new. -/
theorem put (sound : (tree.put place (.file bytes)).Sound) (inside : place ≠ [])
    (beside : place ≠ tree.placeOf path) (has : now.temporary? = some place)
    (had : before.temporary? = some place
      ∨ before.temporary? = none ∧ tree.lookup place = none)
    (whole : now.hasFilled = true → bytes = content) (still : now.isMoved = false)
    : Advances path content tree (tree.put place (.file bytes)) before now where
  home := rfl
  sound := sound
  opened := by
    rintro other has'
    obtain rfl := Option.some.inj (has.symm.trans has')
    exact had.imp id And.right
  owns := by
    rintro other has'
    obtain rfl := Option.some.inj (has.symm.trans has')
    exact ⟨beside, bytes, Tree.lookup_put_self _ _ inside, whole⟩
  gone := by
    intro other had'
    rcases had with had | ⟨without, _⟩
    · exact .inl (has.trans (had.symm.trans had'))
    · simp [without] at had'
  elsewhere := by
    intro other _ apart
    exact .same (Tree.lookup_put_of_ne _ _ fun same => apart (same ▸ has))
  moved := fun moved => by simp [still] at moved

/-- A step that removes the temporary file. -/
theorem remove (sound : tree.Sound) (here : tree.lookup place = some (.file bytes))
    (had : before.temporary? = some place) (still : now.temporary? = none ∧ now.isMoved = false)
    : Advances path content tree (tree.remove place) before now := by
  obtain ⟨without, holds⟩ := Tree.holds_of_file sound here
  refine ⟨rfl, without, ?_, ?_, ?_, ?_, ?_⟩
  · exact fun _ has => by simp [still.1] at has
  · exact fun _ has => by simp [still.1] at has
  · intro other had'
    obtain rfl := Option.some.inj (had.symm.trans had')
    exact .inr holds.vacant
  · intro other apart _
    exact .same (holds.elsewhere other fun same => apart (same ▸ had)).symm
  · exact fun moved => by simp [still.2] at moved

/-- The step in which the temporary file takes the place of the target. -/
theorem move (sound : tree.Sound) (owns : Owns path content tree before place)
    (had : before.temporary? = some place) (filled : before.hasFilled = true)
    (done : tree.moveOver place path = .ok after) (through : now = .moved)
    : Advances path content tree after before now := by
  subst through
  obtain ⟨bytes, here, whole⟩ := owns.holds
  obtain rfl := whole filled
  obtain ⟨without, holds⟩ := Tree.holds_of_file sound here
  have moved : after.read path = .ok bytes
      ∧ (tree.remove place).Becomes after (fun _ => False) (· = tree.placeOf path) :=
    holds.moved without done
  obtain ⟨reads, becomes⟩ := moved
  refine ⟨becomes.home, becomes.sound, nofun, nofun, ?_, ?_, fun _ => reads⟩
  · intro other had'
    obtain rfl := Option.some.inj (had.symm.trans had')
    refine .inr ?_
    rw [becomes.lookup_eq False.elim owns.beside, holds.vacant]
  · intro other apart _
    rw [holds.elsewhere other fun same => apart (same ▸ had)]
    exact (becomes.fate other).mono False.elim fun target => ⟨target, rfl⟩

/-- The step leaves every directory, since neither a temporary file nor the target is one. -/
theorem keeps (advances : Advances path content tree after before now)
    (owns : ∀ place, before.temporary? = some place → Owns path content tree before place)
    : tree.Keeps after where
  home := advances.home
  directories := by
    intro place directory
    have without : before.temporary? ≠ some place := by
      intro had
      obtain ⟨_, here, _⟩ := (owns place had).holds
      simp [directory] at here
    have still : now.temporary? ≠ some place := by
      intro has
      rcases advances.opened place has with had | vacant
      · exact without had
      · simp [directory] at vacant
    cases advances.elsewhere place without still with
    | same unchanged => rw [unchanged, directory]
    | directory _ _ created => exact created
    | file _ _ vacant => exact absurd directory vacant

/-- A place that the step concerns in no way: a file that is neither the target nor the temporary
file of the writer.
-/
theorem lookup_file (advances : Advances path content tree after before now)
    (here : tree.lookup place = some (.file bytes)) (apart : before.temporary? ≠ some place)
    (other : place = tree.placeOf path → now.isMoved = false)
    : after.lookup place = some (.file bytes) := by
  have still : now.temporary? ≠ some place := by
    intro has
    rcases advances.opened place has with had | vacant
    · exact apart had
    · simp [here] at vacant
  cases advances.elsewhere place apart still with
  | same unchanged => rw [unchanged, here]
  | directory _ vacant => simp [here] at vacant
  | file target => simp [other target.1] at target

/-- What is read at the target stays the same as long as no file is moved there. -/
theorem read (advances : Advances path content tree after before now)
    (owns : ∀ place, before.temporary? = some place → Owns path content tree before place)
    (still : now.isMoved = false) (reads : tree.read path = .ok bytes)
    : after.read path = .ok bytes := by
  obtain ⟨spot, found, slash, here⟩ := Tree.read_eq_ok_iff.mp reads
  refine Tree.read_eq_ok_iff.mpr ⟨spot, (advances.keeps owns).spot found, slash, ?_⟩
  refine advances.lookup_file here (fun had => ?_) fun _ => still
  exact (owns _ had).beside (Tree.spot_location found)

end Advances

variable {turn : Writing.Turn ι} {stage : Stage}

theorem waiting_advances (sound : tree.Sound) (turn : Writing.Turn ι)
    : Advances path content tree (next path content turn tree waiting).2 waiting
        (next path content turn tree waiting).1 := by
  have parents (n : Nat) : tree.Becomes
      (tree.createFirst ((Path.withParents (Tree.directoryFor path)).drop n)).2 (tree.OnWay path)
      (fun _ => False) :=
    Tree.createFirst_becomes sound fun _ member =>
      Tree.onWay_of_mem_withParents_directoryFor (List.drop_subset _ _ member)
  unfold next
  cases turn.fault with
  | some reason => exact .prepare (parents _) rfl ⟨rfl, rfl⟩
  | none =>
      have all := parents 0
      rw [List.drop_zero, ← Tree.createDirectories] at all
      rcases created : tree.createDirectories (Tree.directoryFor path) with ⟨result, after⟩
      rw [created] at all
      cases result <;> exact .prepare all rfl ⟨rfl, rfl⟩

theorem housed_advances (sound : tree.Sound) (fresh : Path.fileName? path ≠ some turn.name)
    : Advances path content tree (next path content turn tree housed).2 housed
        (next path content turn tree housed).1 := by
  have stays (now : Stage) (without : now.temporary? = none) (still : now.isMoved = false)
      : Advances path content tree tree housed now :=
    .stay sound without (fun _ has => by simp [without] at has) still
  unfold next
  cases turn.fault with
  | some reason => exact stays _ rfl rfl
  | none =>
      cases opened : tree.openTemporary (Tree.directoryFor path) turn.name with
      | error fault => exact stays _ rfl rfl
      | ok found =>
          rcases Tree.openTemporary_cases opened with rfl | ⟨inside, vacant, rfl⟩
          · exact stays _ rfl rfl
          · exact .put (sound.put _ inside (by simp [vacant])) (by simp)
              (tree.beside_ne_placeOf fresh) rfl (.inr ⟨rfl, vacant⟩) nofun rfl

/-- One step of a writer that owns its temporary file, if it has one; by cases on how far the writer
has come.
-/
theorem next_advances (sound : tree.Sound) (fresh : Path.fileName? path ≠ some turn.name)
    (owns : ∀ place, stage.temporary? = some place → Owns path content tree stage place)
    : Advances path content tree (stage.next path content turn tree).2 stage
        (stage.next path content turn tree).1 := by
  cases stage with
  | waiting => exact waiting_advances sound turn
  | housed => exact housed_advances sound fresh
  | opened temporary =>
      obtain ⟨beside, bytes, here, _⟩ := owns temporary rfl
      have inside := Tree.ne_root_of_file here
      unfold next
      cases turn.fault with
      | some reason => exact .put (sound.put_file _ here) inside beside rfl (.inl rfl) nofun rfl
      | none =>
          exact .put (sound.put_file _ here) inside beside rfl (.inl rfl) (fun _ => rfl) rfl
  | filled temporary =>
      unfold next
      cases turn.fault with
      | some reason => exact .stay sound rfl (fun place has => (owns place has).mono nofun) rfl
      | none => exact .stay sound rfl (fun place has => (owns place has).mono id) rfl
  | stored temporary =>
      have stops (reason : String)
          : Advances path content tree tree (stored temporary) (failing temporary reason) :=
        .stay sound rfl (fun place has => (owns place has).mono nofun) rfl
      simp only [next]
      cases turn.fault with
      | some reason => exact stops reason
      | none =>
          dsimp only
          cases done : tree.moveOver temporary path with
          | error fault => exact stops fault.message
          | ok after => exact .move sound (owns temporary rfl) rfl rfl done rfl
  | moved => exact .stay sound rfl nofun rfl
  | failing temporary reason =>
      obtain ⟨_, bytes, here, _⟩ := owns temporary rfl
      exact .remove sound here rfl ⟨rfl, rfl⟩
  | done => exact .stay sound rfl nofun rfl
  | failed failure => exact .stay sound rfl nofun rfl

/-- A file that has been moved has just been moved or was moved before, and is never moved again; by
cases on how far the writer has come.
-/
theorem hasMoved_next (path : String) (content : Bytes) (turn : Writing.Turn ι) (tree : Tree)
    (stage : Stage)
    : let now := (stage.next path content turn tree).1
      now.hasMoved = (stage.hasMoved || now.isMoved)
      ∧ (stage.hasMoved = true → now.isMoved = false) := by
  fun_cases next path content turn tree stage <;> simp_all [hasMoved, isMoved, stop]

/-- A writer that has failed names its file, in this step or before; by cases on how far the writer
has come.
-/
theorem failed_next {failure : Failure}
    (fails : (stage.next path content turn tree).1 = failed failure)
    : stage = failed failure ∨ ∃ reason, failure = .writeFailed path reason := by
  revert fails
  fun_cases next path content turn tree stage <;> grind [stop]

-----------------------------------------------------------------------------------------
-- All steps of one writer
-----------------------------------------------------------------------------------------

/-- Some steps of one writer, which nobody comes between. -/
def goOn (path : String) (content : Bytes) (turn : Writing.Turn ι)
    : Nat → Stage × Tree → Stage × Tree
  | 0, state => state
  | n + 1, (stage, tree) => goOn path content turn n (stage.next path content turn tree)

/-- A writer that has returned a result. -/
def returned : Except Failure Unit → Stage
  | .ok _ => done
  | .error failure => failed failure

theorem goOn_failed (turn : Writing.Turn ι) (n : Nat) (failure : Failure) (tree : Tree)
    : goOn path content turn n (failed failure, tree) = (failed failure, tree) := by
  induction n with
  | zero => rfl
  | succ n ih => exact ih

/-- A writer with its temporary file needs four steps to fill it and to publish it. -/
theorem goOn_opened (turn : Writing.Turn ι) (sure : turn.fault = none) (temporary : Location)
    (tree : Tree)
    : let published := (tree.put temporary (.file content)).publish temporary path
      goOn path content turn 4 (opened temporary, tree)
      = (returned (published.1.mapError fun fault => .writeFailed path fault.message),
          published.2) := by
  intro published
  simp only [goOn, next, sure]
  cases moved : (tree.put temporary (.file content)).moveOver temporary path with
  | error fault => simp [published, Tree.publish, moved, stop, returned]
  | ok last => simp [published, Tree.publish, moved, returned]

/-- A name that nothing has in the directory of the file, once the missing parents are there. -/
def freeName (tree : Tree) (path : String) : Name :=
  let parents := (tree.createDirectories (Tree.directoryFor path)).2
  parents.freshName (parents.placeOf (Tree.directoryFor path))

/-- A writer that is alone and meets no other obstacle than the tree itself writes the file all at
once; by cases on the step that the tree stands against.
-/
theorem goOn_eq_replace (turn : Writing.Turn ι) (sure : turn.fault = none) (path : String)
    (content : Bytes) (tree : Tree) (free : turn.name = freeName tree path)
    : goOn path content turn 6 (waiting, tree)
      = (returned (tree.replace path content).1, (tree.replace path content).2) := by
  rw [freeName] at free
  unfold Tree.replace
  rw [goOn, next, sure]
  dsimp only
  rcases created : tree.createDirectories (Tree.directoryFor path) with ⟨result, parents⟩
  cases result with
  | error fault => exact goOn_failed ..
  | ok _ =>
      have opened := Tree.openTemporary_freshName parents (Tree.directoryFor path)
      rw [created] at free
      rw [← free] at opened
      dsimp only [Tree.replaceIn]
      rw [goOn, next, sure]
      dsimp only
      rw [opened]
      cases held : parents.createTemporary (Tree.directoryFor path) with
      | error fault => exact goOn_failed ..
      | ok pair => exact goOn_opened turn sure pair.1 pair.2

end Stage
end DocPipeline
