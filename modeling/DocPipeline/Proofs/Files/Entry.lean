import DocPipeline.Proofs.Files.Frame

/-! Entries of directories. The path of a name in a directory denotes the entry of that name
directly inside the place of the directory, however the directory is spelled. A file that is written
there is read back under the same path.
-/

namespace DocPipeline

-----------------------------------------------------------------------------------------
-- Names in directories
-----------------------------------------------------------------------------------------

namespace Path

variable {directory name : String}

theorem steps_of_isName (named : IsName name.toList) : steps name = [name.toList] := by
  rw [steps, Text.splitAt_of_not_mem named.single]
  simp [named.spoken]

theorem isAbsolute_of_isName (named : IsName name.toList) : isAbsolute name = false := by
  obtain ⟨c, cs, spelled⟩ := List.exists_cons_of_ne_nil named.spoken
  have other : c ≠ '/' := by
    intro same
    apply named.single
    rw [spelled, same]
    exact List.mem_cons_self
  simp [isAbsolute, spelled, other]

/-- How a name is put behind a directory: alone if the directory is not spelled at all, and behind a
slash otherwise.
-/
theorem toList_join (directory : String) (named : IsName name.toList)
    : directory = "" ∧ join directory name = name
      ∨ ∃ front, (directory.toList = front ∧ front ≠ [] ∨ directory.toList = front ++ ['/'])
          ∧ (join directory name).toList = front ++ '/' :: name.toList := by
  rw [join, isAbsolute_of_isName named, Bool.false_or]
  split
  next bare => exact .inl ⟨String.isEmpty_iff.mp bare, rfl⟩
  next spoken =>
    have further : directory.toList ≠ [] := by
      intro bare
      apply spoken
      rw [String.isEmpty_iff, ← String.toList_inj, bare]
      rfl
    split
    next slash =>
      obtain ⟨front, spelled⟩ := List.getLast?_eq_some_iff.mp slash
      exact .inr ⟨front, .inr spelled, by simp [spelled]⟩
    next => exact .inr ⟨directory.toList, .inl ⟨rfl, further⟩, by simp⟩

theorem steps_join (named : IsName name.toList)
    : steps (join directory name) = steps directory ++ [name.toList] := by
  rcases toList_join directory named with
    ⟨rfl, bare⟩ | ⟨front, ⟨spelled, _⟩ | spelled, joined⟩
  · rw [bare, steps_of_isName named]
    rfl
  · rw [← steps_of_isName named]
    simp only [steps, joined, spelled, Text.splitAt_append_mark, List.filter_append]
  · have last : (Text.splitAt '/' []).filter (!·.isEmpty) = [] := rfl
    rw [← steps_of_isName named]
    simp only [steps, joined, spelled, Text.splitAt_append_mark, List.filter_append, last,
      List.append_nil]

/-- A name in a directory comes behind the names of the directory. -/
theorem names_join (named : IsName name.toList)
    : names (join directory name) = names directory ++ [name.toList] := by
  rw [names, steps_join named, List.filter_append, names]
  simp [named.moves]

theorem isAbsolute_join (named : IsName name.toList)
    : isAbsolute (join directory name) = isAbsolute directory := by
  rcases toList_join directory named with
    ⟨rfl, bare⟩ | ⟨front, ⟨spelled, further⟩ | spelled, joined⟩
  · rw [bare, isAbsolute_of_isName named]
    rfl
  · obtain ⟨c, cs, rfl⟩ := List.exists_cons_of_ne_nil further
    simp [isAbsolute, joined, spelled]
  · cases front <;> simp [isAbsolute, joined, spelled]

/-- The last name of such a path is the name, unless that leads back. -/
theorem fileName?_join (named : IsName name.toList) (plain : name.toList ≠ above)
    : fileName? (join directory name) = some name.toList := by
  simp [fileName?, names_join named, Option.filter, plain]

end Path

namespace Tree

variable {tree after : Tree} {path directory name : String} {content : Bytes}

/-- The place lies on the way to the one that the path of a directory denotes, or is that place. -/
def Toward (tree : Tree) (directory : String) (place : Location) : Prop :=
  ∃ front, front <+: Path.names directory
    ∧ place = Location.follow (tree.startOf directory) front

theorem startOf_join (tree : Tree) (named : Path.IsName name.toList)
    : tree.startOf (Path.join directory name) = tree.startOf directory := by
  rw [startOf, startOf, Path.isAbsolute_join named]

/-- The path of a name in a directory denotes an entry directly inside the place of the directory.
-/
theorem placeOf_join (tree : Tree) (named : Path.IsName name.toList)
    (plain : name.toList ≠ Path.above)
    : tree.placeOf (Path.join directory name) = tree.placeOf directory ++ [name.toList] := by
  rw [placeOf, startOf_join tree named, Path.names_join named, Location.follow_append,
    Location.follow_of_plain _ (by simpa using plain.symm), placeOf]

/-- On the way to an entry of a directory lies what is on the way to the directory, and that. -/
theorem onWay_join (tree : Tree) (named : Path.IsName name.toList)
    : tree.OnWay (Path.join directory name) = tree.Toward directory := by
  funext place
  rw [OnWay, Toward, startOf_join tree named, Path.names_join named, List.dropLast_concat]

-----------------------------------------------------------------------------------------
-- What paths lead to
-----------------------------------------------------------------------------------------

/-- A path leads to what stands at its place, except that a slash behind it is for directories. -/
theorem entryAt_eq_ok_iff {entry : Entry}
    : tree.entryAt path = .ok entry
      ↔ ∃ spot, tree.spot path = .ok spot ∧ tree.lookup spot.location = some entry
          ∧ (entry ≠ .directory → spot.endsInSlash = false) := by
  unfold entryAt
  constructor
  · intro stands
    obtain ⟨spot, found, stands⟩ := Except.exists_of_bind_eq_ok stands
    refine ⟨spot, found, ?_⟩
    cases here : tree.lookup spot.location with
    | none =>
        rw [here] at stands
        cases stands
    | some kind =>
        rw [here] at stands
        cases kind with
        | directory =>
            cases stands
            exact ⟨rfl, fun other => absurd rfl other⟩
        | file bytes | sealed bytes =>
            dsimp only at stands
            split at stands
            · cases stands
            · next open' =>
                cases stands
                exact ⟨rfl, fun _ => by simpa using open'⟩
  · rintro ⟨spot, found, here, open'⟩
    rw [found, Except.ok_bind, here]
    cases entry with
    | directory => rfl
    | file bytes | sealed bytes =>
        simp only [open' nofun]
        rfl

theorem exists_entryAt_of_isFile (there : tree.isFile path = true)
    : ∃ entry, entry ≠ .directory ∧ tree.entryAt path = .ok entry := by
  unfold isFile at there
  cases stands : tree.entryAt path with
  | error fault => simp [stands] at there
  | ok entry =>
      refine ⟨entry, ?_, rfl⟩
      rintro rfl
      simp [stands] at there

-----------------------------------------------------------------------------------------
-- Files that may not be read
-----------------------------------------------------------------------------------------

/-- No step of a path is forbidden, only the reading of a file; by induction on the steps. -/
theorem walk_ne_forbidden (tree : Tree) (place : Location) (steps : List Name)
    : tree.walk place steps ≠ .error .forbidden := by
  induction steps generalizing place with
  | nil => nofun
  | cons name rest ih =>
      unfold walk enter
      split_ifs
      · exact ih _
      · exact ih _
      · intro refused
        cases refused
      · cases tree.lookup (place ++ [name]) with
        | none =>
            intro refused
            cases refused
        | some entry =>
            cases entry with
            | directory => exact ih _
            | file _ | sealed _ =>
                intro refused
                cases refused

theorem spot_ne_forbidden (tree : Tree) (path : String) : tree.spot path ≠ .error .forbidden := by
  rw [spot_eq]
  intro refused
  cases text : textFault path with
  | error fault =>
      rw [text] at refused
      obtain rfl : fault = .forbidden := Except.error.inj refused
      unfold textFault at text
      split_ifs at text <;> cases text
  | ok _ =>
      rw [text, Except.ok_bind] at refused
      split at refused
      · cases refused
      · cases walked : tree.walk (tree.startOf path) (Path.steps path).dropLast with
        | error fault =>
            rw [walked] at refused
            obtain rfl : fault = .forbidden := Except.error.inj refused
            exact walk_ne_forbidden tree _ _ walked
        | ok place =>
            rw [walked, Except.ok_bind, lastStep] at refused
            split_ifs at refused
            cases refused

theorem entryAt_ne_forbidden (tree : Tree) (path : String)
    : tree.entryAt path ≠ .error .forbidden := by
  unfold entryAt
  cases found : tree.spot path with
  | error fault =>
      intro refused
      obtain rfl : fault = .forbidden := Except.error.inj refused
      exact spot_ne_forbidden tree path found
  | ok spot =>
      rw [Except.ok_bind]
      split
      · nofun
      · nofun
      · split <;> nofun

/-- Reading is forbidden exactly where a path leads to a sealed file. -/
theorem read_eq_forbidden_iff
    : tree.read path = .error .forbidden
      ↔ ∃ content, tree.entryAt path = .ok (.sealed content) := by
  constructor
  · intro refused
    unfold read at refused
    cases stands : tree.entryAt path with
    | error fault =>
        rw [stands] at refused
        obtain rfl : fault = .forbidden := Except.error.inj refused
        exact absurd stands (entryAt_ne_forbidden tree path)
    | ok entry =>
        rw [stands] at refused
        cases entry with
        | directory | file => cases refused
        | sealed content => exact ⟨content, rfl⟩
  · rintro ⟨content, stands⟩
    rw [read, stands]
    rfl

-----------------------------------------------------------------------------------------
-- Directories that are there
-----------------------------------------------------------------------------------------

theorem isDirectory_iff
    : tree.isDirectory path = true
      ↔ ∃ spot, tree.spot path = .ok spot ∧ tree.lookup spot.location = some .directory := by
  unfold isDirectory
  constructor
  · intro there
    split at there
    · next stands =>
        obtain ⟨spot, found, here, _⟩ := entryAt_eq_ok_iff.mp stands
        exact ⟨spot, found, here⟩
    · cases there
  · rintro ⟨spot, found, here⟩
    rw [entryAt_eq_ok_iff.mpr ⟨spot, found, here, fun other => absurd rfl other⟩]

/-- A directory is found again in a tree that keeps all directories. -/
theorem Keeps.isDirectory (keeps : tree.Keeps after) (there : tree.isDirectory path = true)
    : after.isDirectory path = true := by
  obtain ⟨spot, found, here⟩ := isDirectory_iff.mp there
  exact isDirectory_iff.mpr ⟨spot, keeps.spot found, keeps.directories _ here⟩

theorem isDirectory_of_createDirectory (sound : tree.Sound)
    (created : tree.createDirectory path = .ok after) : after.isDirectory path = true := by
  have becomes : tree.Becomes after (· = tree.placeOf path) (fun _ => False) :=
    createDirectory_becomes sound rfl created
  obtain ⟨spot, found, created⟩ := Except.exists_of_bind_eq_ok created
  by_cases taken : (!spot.isNamed || (tree.lookup spot.location).isSome) = true
  · rw [if_pos taken] at created
    cases created
  · rw [if_neg taken] at created
    obtain rfl := Except.ok.inj created
    refine isDirectory_iff.mpr ⟨spot, becomes.keeps.spot found, ?_⟩
    obtain ⟨directory, name, here, _⟩ := sound.spot_inside found (by simp_all)
    exact lookup_put_self tree _ (by simp [here])

/-- The first of some directories is there when it has been created or accepted; by cases on the
ways of creating it.
-/
theorem isDirectory_of_createFirst {parents : List String} (sound : tree.Sound)
    (created : tree.createFirst (path :: parents) = (.ok (), after))
    : after.isDirectory path = true := by
  have accepted {tree after : Tree} {fault : PathFault}
      (accepted : tree.acceptDirectory path fault = (.ok (), after))
      : after.isDirectory path = true := by
    unfold acceptDirectory at accepted
    split at accepted
    · next there =>
        cases accepted
        exact there
    · cases accepted
  unfold createFirst at created
  cases first : tree.createDirectory path with
  | ok last =>
      rw [first] at created
      cases created
      exact isDirectory_of_createDirectory sound first
  | error fault =>
      rw [first] at created
      cases fault with
      | missing =>
          have becomes : tree.Becomes (tree.createFirst parents).2 (fun _ => True)
              (fun _ => False) :=
            createFirst_becomes sound fun _ _ => trivial
          rcases above : tree.createFirst parents with ⟨result, between⟩
          rw [above] at created becomes
          cases result with
          | error fault => cases created
          | ok _ =>
              dsimp only at created becomes
              cases again : between.createDirectory path with
              | ok last =>
                  rw [again] at created
                  cases created
                  exact isDirectory_of_createDirectory becomes.sound again
              | error fault =>
                  rw [again] at created
                  exact accepted created
      | _ => exact accepted created

theorem isDirectory_of_createDirectories (sound : tree.Sound) (named : path ≠ "")
    (created : tree.createDirectories path = (.ok (), after)) : after.isDirectory path = true := by
  unfold createDirectories Path.withParents at created
  rw [List.filter_cons_of_pos (by simpa using named)] at created
  exact isDirectory_of_createFirst sound created

-----------------------------------------------------------------------------------------
-- Files read back
-----------------------------------------------------------------------------------------

theorem read_eq_ok_iff
    : tree.read path = .ok content
      ↔ ∃ spot, tree.spot path = .ok spot ∧ spot.endsInSlash = false
          ∧ tree.lookup spot.location = some (.file content) := by
  unfold read
  constructor
  · intro reads
    obtain ⟨entry, stands, reads⟩ := Except.exists_of_bind_eq_ok reads
    obtain ⟨spot, found, here, open'⟩ := entryAt_eq_ok_iff.mp stands
    cases entry with
    | directory | sealed => cases reads
    | file bytes =>
        cases reads
        exact ⟨spot, found, open' nofun, here⟩
  · rintro ⟨spot, found, open', here⟩
    rw [entryAt_eq_ok_iff.mpr ⟨spot, found, here, fun _ => open'⟩]
    rfl

theorem entryAt_of_read (reads : tree.read path = .ok content)
    : tree.entryAt path = .ok (.file content) := by
  obtain ⟨entry, stands, reads⟩ := Except.exists_of_bind_eq_ok reads
  cases entry with
  | directory | sealed => cases reads
  | file bytes =>
      cases reads
      exact stands

theorem lookup_of_read (reads : tree.read path = .ok content)
    : tree.lookup (tree.placeOf path) = some (.file content) := by
  obtain ⟨spot, found, _, here⟩ := read_eq_ok_iff.mp reads
  rwa [← spot_location found]

/-- A file that is written is read back, since writing it leaves all directories on the way. -/
theorem read_of_write (sound : tree.Sound) (written : tree.write path content = .ok after)
    : after.read path = .ok content := by
  have becomes : tree.Becomes after (fun _ => False) (· = tree.placeOf path) :=
    write_becomes sound written
  obtain ⟨spot, found, named, slash, _, rfl⟩ := write_cases written
  obtain ⟨directory, name, here, _⟩ := sound.spot_inside found named
  refine read_eq_ok_iff.mpr ⟨spot, becomes.keeps.spot found, slash, ?_⟩
  exact lookup_put_self tree _ (by simp [here])

end Tree
end DocPipeline
