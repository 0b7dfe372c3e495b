import DocPipeline.Proofs.Files.Sound

/-! What changes of a tree leave as it is. Creating the parents of a path adds directories on the
way to it and nothing else, and writing its file changes the entry at its place only. A temporary
file is at a fresh place, so nothing of it is left when it has been moved or removed.
-/

namespace DocPipeline.Tree

variable {tree between after : Tree} {way file : Location → Prop} {path : String}

-----------------------------------------------------------------------------------------
-- Frames
-----------------------------------------------------------------------------------------

/-- What may have become of a place: nothing has changed, or there is a directory where nothing was,
or a file where no directory was.
-/
inductive Fate (before now : Option Entry) (way file : Prop) : Prop
  | same (unchanged : now = before)
  | directory (onWay : way) (vacant : before = none) (created : now = some .directory)
  | file (target : file) (content : Bytes) (vacant : before ≠ some .directory)
    (written : now = some (.file content))

namespace Fate

variable {first second third : Option Entry} {onWay target : Prop}

theorem mono {onWay' target' : Prop} (fate : Fate first second onWay target)
    (ways : onWay → onWay') (targets : target → target') : Fate first second onWay' target' := by
  cases fate with
  | same unchanged => exact .same unchanged
  | directory onWay vacant created => exact .directory (ways onWay) vacant created
  | file target content vacant written => exact .file (targets target) content vacant written

/-- One change after the other; what has become a directory or a file stays one. -/
theorem trans (before : Fate first second onWay target) (after : Fate second third onWay target)
    : Fate first third onWay target := by
  cases after with
  | same unchanged => exact unchanged ▸ before
  | directory onWay vacant created =>
      cases before with
      | same unchanged => exact .directory onWay (unchanged ▸ vacant) created
      | directory _ _ there => simp [there] at vacant
      | file _ _ _ there => simp [there] at vacant
  | file target content vacant written =>
      cases before with
      | same unchanged => exact .file target content (unchanged ▸ vacant) written
      | directory _ _ there => exact absurd there vacant
      | file _ _ before _ => exact .file target content before written

end Fate

/-- The second tree has come from the first one by creating directories at places of one kind and
writing files at places of another one.
-/
structure Becomes (tree after : Tree) (way file : Location → Prop) : Prop where
  home : after.home = tree.home
  sound : after.Sound
  fate : ∀ place, Fate (tree.lookup place) (after.lookup place) (way place) (file place)

namespace Becomes

theorem refl (sound : tree.Sound) : tree.Becomes tree way file :=
  ⟨rfl, sound, fun _ => .same rfl⟩

theorem keeps (becomes : tree.Becomes after way file) : tree.Keeps after where
  home := becomes.home
  directories := by
    intro place directory
    cases becomes.fate place with
    | same unchanged => rw [unchanged, directory]
    | directory _ _ created => exact created
    | file _ _ vacant => exact absurd directory vacant

/-- One change after the other; a place that has become a directory or a file stays one. -/
theorem trans (first : tree.Becomes between way file) (second : between.Becomes after way file)
    : tree.Becomes after way file where
  home := second.home.trans first.home
  sound := second.sound
  fate := fun place => (first.fate place).trans (second.fate place)

/-- A place has not changed where no directory may be created, since it is no place for one or
something is there, and where no file may be written.
-/
theorem lookup_eq (becomes : tree.Becomes after way file) {place : Location}
    (taken : way place → tree.lookup place ≠ none) (other : ¬ file place)
    : after.lookup place = tree.lookup place := by
  cases becomes.fate place with
  | same unchanged => exact unchanged
  | directory onWay vacant => exact absurd vacant (taken onWay)
  | file target => exact absurd target other

theorem mono {way' file' : Location → Prop} (becomes : tree.Becomes after way file)
    (ways : ∀ place, way place → way' place) (files : ∀ place, file place → file' place)
    : tree.Becomes after way' file' where
  home := becomes.home
  sound := becomes.sound
  fate := fun place => (becomes.fate place).mono (ways place) (files place)

end Becomes

-----------------------------------------------------------------------------------------
-- Directories
-----------------------------------------------------------------------------------------

/-- Something new in a directory, in place of nothing or of a file, is all that changes. -/
theorem put_becomes {place : Location} {name : Name} {entry : Entry} (sound : tree.Sound)
    (inside : tree.lookup place = some .directory)
    (fate : Fate (tree.lookup (place ++ [name])) (some entry) (way (place ++ [name]))
      (file (place ++ [name])))
    (vacant : tree.lookup (place ++ [name]) ≠ some .directory)
    : tree.Becomes (tree.put (place ++ [name]) entry) way file where
  home := rfl
  sound := sound.put entry inside vacant
  fate := by
    intro other
    by_cases here : other = place ++ [name]
    · rw [here, lookup_put_self tree entry (by simp)]
      exact fate
    · rw [lookup_put_of_ne tree entry here]
      exact .same rfl

theorem createDirectory_becomes (sound : tree.Sound) (onWay : way (tree.placeOf path))
    (created : tree.createDirectory path = .ok after) : tree.Becomes after way file := by
  obtain ⟨spot, found, created⟩ := Except.exists_of_bind_eq_ok created
  by_cases taken : (!spot.isNamed || (tree.lookup spot.location).isSome) = true
  · rw [if_pos taken] at created
    cases created
  · rw [if_neg taken] at created
    obtain rfl := Except.ok.inj created
    simp only [Bool.or_eq_true, Bool.not_eq_true', not_or, Bool.not_eq_false,
      Option.isSome_iff_ne_none, ne_eq, not_not] at taken
    obtain ⟨named, vacant⟩ := taken
    rw [← spot_location found] at onWay
    obtain ⟨directory, name, here, inside⟩ := sound.spot_inside found named
    rw [here] at onWay vacant ⊢
    exact put_becomes sound inside (.directory onWay vacant rfl) (by simp [vacant])

/-- Creating the first of some directories adds directories at the places of these only, by
induction on the list.
-/
theorem createFirst_becomes {directories : List String} (sound : tree.Sound)
    (onWay : ∀ directory ∈ directories, way (tree.placeOf directory))
    : tree.Becomes (tree.createFirst directories).2 way file := by
  induction directories with
  | nil => exact .refl sound
  | cons path parents ih =>
      have here := onWay path List.mem_cons_self
      have accepted (tree : Tree) (fault : PathFault)
          : (tree.acceptDirectory path fault).2 = tree := by
        unfold acceptDirectory
        split <;> rfl
      unfold createFirst
      cases created : tree.createDirectory path with
      | ok after => exact createDirectory_becomes sound here created
      | error fault =>
          have first := ih fun directory member => onWay directory (List.mem_cons_of_mem _ member)
          have refused : tree.Becomes (tree.acceptDirectory path fault).2 way file := by
            rw [accepted]
            exact .refl sound
          cases fault with
          | missing =>
              rcases parents : tree.createFirst parents with ⟨result, between⟩
              rw [parents] at first
              dsimp only at first ⊢
              cases result with
              | error fault => exact first
              | ok _ =>
                  dsimp only
                  cases again : between.createDirectory path with
                  | error fault =>
                      dsimp only
                      rwa [accepted]
                  | ok after =>
                      refine first.trans (createDirectory_becomes first.sound ?_ again)
                      rwa [placeOf_of_home first.home]
          | _ => exact refused

/-- Creating the directories that are missing on the way to a path leaves a place alone, and
everything below it.
-/
def Spares (tree : Tree) (path : String) (place : Location) : Prop :=
  ∀ other, tree.OnWay path other → tree.lookup other = none → ¬ place <+: other

/-- A path that never leads back spares every place that is not above its own one. -/
theorem spares_of_not_prefix {place : Location} (plain : Path.above ∉ Path.names path)
    (apart : ¬ place <+: tree.placeOf path) : tree.Spares path place :=
  fun _ onWay _ above => apart (above.trans (onWay.prefix_of_plain plain))

/-- A path that never leads back spares its own place. -/
theorem spares_placeOf (sound : tree.Sound) (plain : Path.above ∉ Path.names path)
    : tree.Spares path (tree.placeOf path) := by
  intro other onWay vacant below
  have whole : other = tree.placeOf path :=
    (onWay.prefix_of_plain plain).eq_of_length_le below.length_le
  by_cases names : Path.names path = []
  · have start := sound.directory_startOf path
    rw [whole, Tree.placeOf, names, Location.follow, start] at vacant
    cases vacant
  · exact onWay.ne_of_plain plain names whole

-----------------------------------------------------------------------------------------
-- Files
-----------------------------------------------------------------------------------------

/-- How a file is written: the path leads to a name in a directory, and what stands there is no
directory.
-/
theorem write_cases {content : Bytes} (written : tree.write path content = .ok after)
    : ∃ spot,
        tree.spot path = .ok spot ∧ spot.isNamed = true ∧ spot.endsInSlash = false
        ∧ tree.lookup spot.location ≠ some .directory
        ∧ after = tree.put spot.location (.file content) := by
  obtain ⟨spot, found, written⟩ := Except.exists_of_bind_eq_ok written
  refine ⟨spot, found, ?_⟩
  by_cases unnamed : (!spot.isNamed || spot.endsInSlash) = true
  · rw [if_pos unnamed] at written
    cases written
  · rw [if_neg unnamed] at written
    simp only [Bool.or_eq_true, Bool.not_eq_true', not_or, Bool.not_eq_false,
      Bool.not_eq_true] at unnamed
    refine ⟨unnamed.1, unnamed.2, ?_⟩
    cases stands : tree.lookup spot.location with
    | none =>
        rw [stands] at written
        exact ⟨nofun, (Except.ok.inj written).symm⟩
    | some entry =>
        rw [stands] at written
        cases entry with
        | directory | sealed => cases written
        | file _ => exact ⟨nofun, (Except.ok.inj written).symm⟩

/-- Writing a file changes the entry at its place only, which no directory is. -/
theorem write_becomes {content : Bytes} (sound : tree.Sound)
    (written : tree.write path content = .ok after)
    : tree.Becomes after way (· = tree.placeOf path) := by
  obtain ⟨spot, found, named, _, vacant, rfl⟩ := write_cases written
  obtain ⟨directory, name, here, inside⟩ := sound.spot_inside found named
  have target := spot_location found
  rw [here] at target vacant ⊢
  exact put_becomes sound inside (.file target content vacant rfl) vacant

/-- A tree is itself again when everything at and below a place is removed where nothing was before,
provided that nothing else has changed.
-/
theorem becomes_of_remove {place : Location} (sound : tree.Sound)
    (vacant : tree.lookup place = none) (changed : between.Sound) (home : between.home = tree.home)
    (elsewhere : ∀ other, ¬ place <+: other → between.lookup other = tree.lookup other)
    : tree.Becomes (between.remove place) way file where
  home := home
  sound := by
    refine changed.remove fun below => ?_
    rw [home] at below
    have gone : tree.lookup tree.home = none := by
      by_cases same : tree.home = place
      · rw [same, vacant]
      · exact sound.lookup_below (by simp [vacant]) below same
    simp [sound.home] at gone
  fate := by
    intro other
    refine .same ?_
    by_cases below : place <+: other
    · have inside : other ≠ [] := by
        rintro rfl
        rw [List.prefix_nil.mp below] at vacant
        cases vacant
      rw [lookup_remove_below between below inside]
      by_cases same : other = place
      · rw [same, vacant]
      · rw [sound.lookup_below (by simp [vacant]) below same]
    · rw [lookup_remove_elsewhere between below, elsewhere other below]

/-- How a file is moved over a path: the path leads to a name in a directory, and what stands there
is no directory.
-/
theorem moveOver_cases {source : Location} {content : Bytes}
    (stands : between.lookup source = some (.file content))
    (moved : between.moveOver source path = .ok after)
    : ∃ spot,
        between.spot path = .ok spot ∧ spot.isNamed = true ∧ spot.endsInSlash = false
        ∧ between.lookup spot.location ≠ some .directory
        ∧ after = (between.remove source).put spot.location (.file content) := by
  unfold moveOver at moved
  by_cases zero : path.toList.contains '\x00' = true
  · simp only [if_pos zero] at moved
    cases moved
  · simp only [if_neg zero] at moved
    obtain ⟨spot, found, moved⟩ := Except.exists_of_bind_eq_ok moved
    refine ⟨spot, found, ?_⟩
    by_cases unnamed : (!spot.isNamed) = true
    · rw [if_pos unnamed] at moved
      cases moved
    · rw [if_neg unnamed] at moved
      by_cases slash : spot.endsInSlash = true
      · rw [if_pos slash] at moved
        cases moved
      · rw [if_neg slash, stands] at moved
        refine ⟨by simpa using unnamed, by simpa using slash, ?_⟩
        cases target : between.lookup spot.location with
        | none =>
            rw [target] at moved
            exact ⟨nofun, (Except.ok.inj moved).symm⟩
        | some entry =>
            rw [target] at moved
            cases entry with
            | directory => cases moved
            | file _ | sealed _ => exact ⟨nofun, (Except.ok.inj moved).symm⟩

/-- A temporary file in a directory, with its content: nothing was at its place, and nothing else
has changed.
-/
structure Holds (tree between : Tree) (temporary : Location) (content : Bytes) : Prop where
  vacant : tree.lookup temporary = none
  home : between.home = tree.home
  sound : between.Sound
  here : between.lookup temporary = some (.file content)
  elsewhere : ∀ other, other ≠ temporary → between.lookup other = tree.lookup other

theorem createTemporary_holds {directory : String} {temporary : Location} {content : Bytes}
    (sound : tree.Sound)
    (created : tree.createTemporary directory = .ok (temporary, between))
    : tree.Holds (between.put temporary (.file content)) temporary content := by
  obtain ⟨spot, found, created⟩ := Except.exists_of_bind_eq_ok created
  by_cases inside : tree.hasDirectory spot.location = true
  · rw [if_pos inside] at created
    obtain ⟨rfl, rfl⟩ := Prod.mk.inj (Except.ok.inj created)
    have directory : tree.lookup spot.location = some .directory := of_decide_eq_true inside
    have vacant := tree.lookup_freshLocation spot.location
    have further : tree.freshLocation spot.location ≠ [] := by simp [freshLocation]
    have empty : (tree.put (tree.freshLocation spot.location) (.file [])).Sound :=
      sound.put_fresh _ directory
    have parent : spot.location ≠ tree.freshLocation spot.location := by simp [freshLocation]
    refine ⟨vacant, rfl, empty.put _ ?_ ?_, lookup_put_self _ _ further, fun other elsewhere => ?_⟩
    · rw [lookup_put_of_ne tree _ parent, directory]
    · rw [← freshLocation, lookup_put_self tree _ further]
      simp
    · rw [lookup_put_of_ne _ _ elsewhere, lookup_put_of_ne _ _ elsewhere]
  · rw [if_neg inside] at created
    cases created

/-- Removing a temporary file leaves the tree as it was. -/
theorem Holds.removed {temporary : Location} {content : Bytes} (sound : tree.Sound)
    (holds : tree.Holds between temporary content)
    : tree.Becomes (between.remove temporary) way file :=
  becomes_of_remove sound holds.vacant holds.sound holds.home fun other apart =>
    holds.elsewhere other fun same => apart (same ▸ List.prefix_rfl)

/-- Moving a temporary file to a path leaves its content there and nothing of it elsewhere. -/
theorem Holds.moved {temporary : Location} {content : Bytes} (sound : tree.Sound)
    (holds : tree.Holds between temporary content)
    (moved : between.moveOver temporary path = .ok after)
    : after.read path = .ok content ∧ tree.Becomes after way (· = tree.placeOf path) := by
  obtain ⟨spot, found, named, slash, vacant, rfl⟩ := moveOver_cases holds.here moved
  obtain ⟨directory, name, here, inside⟩ := holds.sound.spot_inside found named
  have removed : tree.Becomes (between.remove temporary) way (· = tree.placeOf path) :=
    holds.removed sound
  have unchanged (other : Location) : (between.remove temporary).lookup other = tree.lookup other :=
    Becomes.lookup_eq (holds.removed sound : tree.Becomes _ (fun _ => False) (fun _ => False))
      False.elim not_false
  have before (other : Location) (stands : between.lookup other = some .directory)
      : tree.lookup other = some .directory := by
    rw [← holds.elsewhere other, stands]
    rintro rfl
    simp [holds.here] at stands
  have target : spot.location = tree.placeOf path :=
    (spot_location found).trans (placeOf_of_home holds.home path)
  have free : (between.remove temporary).lookup spot.location ≠ some .directory := by
    rw [unchanged]
    by_cases same : spot.location = temporary
    · rw [same, holds.vacant]
      nofun
    · rwa [← holds.elsewhere _ same]
  have written : tree.Becomes ((between.remove temporary).put spot.location (.file content)) way
      (· = tree.placeOf path) := by
    rw [here] at free target ⊢
    refine removed.trans (put_becomes removed.sound ?_ (.file target content free rfl) free)
    rw [unchanged, before directory inside]
  refine ⟨?_, written⟩
  have keeps : between.Keeps ((between.remove temporary).put spot.location (.file content)) :=
    ⟨rfl, fun place stands => written.keeps.directories place (before place stands)⟩
  have further : spot.location ≠ [] := by simp [here]
  rw [read, entryAt, keeps.spot found, Except.ok_bind, lookup_put_self _ _ further]
  simp only [slash]
  rfl

/-- Publishing a temporary file writes its content to the path, or leaves the tree as it was. -/
theorem Holds.published (way file : Location → Prop) (path : String) {temporary : Location}
    {content : Bytes} (sound : tree.Sound) (holds : tree.Holds between temporary content)
    : match between.publish temporary path with
      | (.ok _, after) =>
        after.read path = .ok content ∧ tree.Becomes after way (· = tree.placeOf path)
      | (.error _, after) => tree.Becomes after way file := by
  unfold publish
  cases moved : between.moveOver temporary path with
  | ok after => exact holds.moved sound moved
  | error fault => exact holds.removed sound

/-- What writing a file all at once leads to: its content is at the path, or writing to this path
has failed and no file has changed. In both cases directories on the way to the path may be new.
-/
inductive Replaced (tree : Tree) (path : String) (content : Bytes)
    : Except Failure Unit → Tree → Prop
  | done {after : Tree} (reads : after.read path = .ok content)
    (becomes : tree.Becomes after (tree.OnWay path) (· = tree.placeOf path))
    : Replaced tree path content (.ok ()) after
  | failed {after : Tree} (reason : String)
    (becomes : tree.Becomes after (tree.OnWay path) (fun _ => False))
    : Replaced tree path content (.error (.writeFailed path reason)) after

theorem replace_replaced (sound : tree.Sound) (path : String) (content : Bytes)
    : tree.Replaced path content (tree.replace path content).1 (tree.replace path content).2 := by
  have parents (file : Location → Prop)
      : tree.Becomes (tree.createDirectories (directoryFor path)).2 (tree.OnWay path) file :=
    createFirst_becomes sound fun _ member => onWay_of_mem_withParents_directoryFor member
  unfold replace
  rcases created : tree.createDirectories (directoryFor path) with ⟨result, between⟩
  rw [created] at parents
  cases result with
  | error fault => exact .failed fault.message (parents _)
  | ok _ =>
      dsimp only [replaceIn] at parents ⊢
      cases held : between.createTemporary (directoryFor path) with
      | error fault => exact .failed fault.message (parents _)
      | ok pair =>
          obtain ⟨temporary, last⟩ := pair
          have holds : between.Holds (last.put temporary (.file content)) temporary content :=
            createTemporary_holds (parents (fun _ => False)).sound held
          have moved := Holds.published (tree.OnWay path) (fun _ => False) path
            (parents (fun _ => False)).sound holds
          dsimp only
          rcases published : (last.put temporary (.file content)).publish temporary path
            with ⟨result, after⟩
          rw [published] at moved
          cases result with
          | error fault => exact .failed fault.message ((parents _).trans moved)
          | ok _ =>
              obtain ⟨reads, moved⟩ := moved
              rw [placeOf_of_home (parents (fun _ => False)).home] at moved
              exact .done reads ((parents _).trans moved)

end DocPipeline.Tree
