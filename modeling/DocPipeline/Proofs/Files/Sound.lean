import DocPipeline.Proofs.Files.Place
import Mathlib.Data.List.Induction

/-! Trees that hang together. Everything stands in a directory, so nothing stands below a place at
which there is no directory. Following a path leads through directories only, and goes on to do so
as long as these remain.
-/

namespace DocPipeline.Tree

open Location (follow)

variable {tree : Tree} {place other : Location} {name : Name} {entry : Entry}

-----------------------------------------------------------------------------------------
-- Looking up what was put or removed
-----------------------------------------------------------------------------------------

@[simp]
theorem lookup_root (tree : Tree) : tree.lookup [] = some .directory :=
  rfl

theorem lookup_put_self (tree : Tree) (entry : Entry) (inside : place ≠ [])
    : (tree.put place entry).lookup place = some entry := by
  simp [lookup, put, inside]

theorem lookup_put_of_ne (tree : Tree) (entry : Entry) (elsewhere : other ≠ place)
    : (tree.put place entry).lookup other = tree.lookup other := by
  have kept : (tree.entries.filter (·.1 != place)).find? (·.1 = other)
      = tree.entries.find? (·.1 = other) := by
    rw [List.find?_filter]
    congr 1
    funext candidate
    by_cases same : candidate.1 = other
    · simp [same, elsewhere]
    · simp [same]
  simp [lookup, put, Ne.symm elsewhere, kept]

theorem lookup_remove_below (tree : Tree) (below : place <+: other) (inside : other ≠ [])
    : (tree.remove place).lookup other = none := by
  have gone : (tree.entries.filter (!place.isPrefixOf ·.1)).find? (·.1 = other) = none := by
    rw [List.find?_eq_none]
    intro candidate member
    obtain ⟨_, outside⟩ := List.mem_filter.mp member
    intro same
    rw [of_decide_eq_true same, List.isPrefixOf_iff_prefix.mpr below] at outside
    cases outside
  simp [lookup, remove, inside, gone]

theorem lookup_remove_elsewhere (tree : Tree) (apart : ¬ place <+: other)
    : (tree.remove place).lookup other = tree.lookup other := by
  have kept : (tree.entries.filter (!place.isPrefixOf ·.1)).find? (·.1 = other)
      = tree.entries.find? (·.1 = other) := by
    rw [List.find?_filter]
    congr 1
    funext candidate
    by_cases same : candidate.1 = other
    · simpa [same, ← Bool.not_eq_true, List.isPrefixOf_iff_prefix] using apart
    · simp [same]
  simp [lookup, remove, kept]

-----------------------------------------------------------------------------------------
-- Soundness
-----------------------------------------------------------------------------------------

/-- The tree hangs together: relative paths begin in a directory, and whatever there is stands in
one.
-/
structure Sound (tree : Tree) : Prop where
  home : tree.lookup tree.home = some .directory
  parent : ∀ place name, tree.lookup (place ++ [name]) ≠ none → tree.lookup place = some .directory

namespace Sound

variable (sound : tree.Sound)

include sound

/-- Whatever stands below a place stands in a directory there, by induction on how far below. -/
theorem directory_of_below {below : List Name} (further : below ≠ [])
    (stands : tree.lookup (place ++ below) ≠ none) : tree.lookup place = some .directory := by
  induction below using List.reverseRecOn with
  | nil => exact absurd rfl further
  | append_singleton front name ih =>
      rw [← List.append_assoc] at stands
      have parent := sound.parent _ _ stands
      by_cases direct : front = []
      · rwa [direct, List.append_nil] at parent
      · exact ih direct (by simp [parent])

theorem lookup_below (vacant : tree.lookup place ≠ some .directory) (below : place <+: other)
    (elsewhere : other ≠ place) : tree.lookup other = none := by
  obtain ⟨rest, rfl⟩ := below
  by_contra stands
  exact vacant (sound.directory_of_below (by simpa using elsewhere) stands)

theorem directory_dropLast (directory : tree.lookup place = some .directory)
    : tree.lookup place.dropLast = some .directory := by
  rcases List.eq_nil_or_concat place with rfl | ⟨front, name, rfl⟩
  · exact directory
  · rw [List.concat_eq_append] at directory ⊢
    rw [List.dropLast_concat]
    exact sound.parent front name (by simp [directory])

/-- Putting something into a directory keeps a tree sound, unless it takes the place of a directory,
since nothing stands below it.
-/
theorem put (entry : Entry) (inside : tree.lookup place = some .directory)
    (vacant : tree.lookup (place ++ [name]) ≠ some .directory)
    : (tree.put (place ++ [name]) entry).Sound where
  home := by
    have elsewhere : tree.home ≠ place ++ [name] := fun same => vacant (same ▸ sound.home)
    exact (lookup_put_of_ne tree entry elsewhere).trans sound.home
  parent := by
    intro directory last stands
    by_cases same : directory ++ [last] = place ++ [name]
    · obtain ⟨rfl, _⟩ := List.append_inj' same rfl
      rw [lookup_put_of_ne tree entry (by simp), inside]
    · rw [lookup_put_of_ne tree entry same] at stands
      have parent := sound.parent directory last stands
      have elsewhere : directory ≠ place ++ [name] := fun same => vacant (same ▸ parent)
      rw [lookup_put_of_ne tree entry elsewhere, parent]

/-- Removing everything below a place keeps a tree sound as long as its home stays. -/
theorem remove (away : ¬ place <+: tree.home) : (tree.remove place).Sound where
  home := (lookup_remove_elsewhere tree away).trans sound.home
  parent := by
    intro directory last stands
    have outside : ¬ place <+: directory ++ [last] := fun below =>
      stands (lookup_remove_below tree below (by simp))
    rw [lookup_remove_elsewhere tree outside] at stands
    rw [lookup_remove_elsewhere tree fun below =>
      outside (below.trans (List.prefix_append _ _))]
    exact sound.parent directory last stands

-----------------------------------------------------------------------------------------
-- Paths through directories
-----------------------------------------------------------------------------------------

theorem directory_startOf (path : String) : tree.lookup (tree.startOf path) = some .directory := by
  unfold startOf
  split
  · rfl
  · exact sound.home

theorem directory_of_enter {last : Location} (directory : tree.lookup place = some .directory)
    (entered : tree.enter place name = .ok last) : tree.lookup last = some .directory := by
  unfold enter at entered
  split at entered
  · exact Except.ok.inj entered ▸ directory
  · split at entered
    · exact Except.ok.inj entered ▸ sound.directory_dropLast directory
    · split at entered
      · cases entered
      · split at entered
        · cases entered
        · next found => exact Except.ok.inj entered ▸ found
        · cases entered

theorem directory_of_walk {last : Location} {steps : List Name}
    (directory : tree.lookup place = some .directory)
    (walked : tree.walk place steps = .ok last) : tree.lookup last = some .directory := by
  induction steps generalizing place with
  | nil => exact Except.ok.inj walked ▸ directory
  | cons name rest ih =>
      obtain ⟨next, entered, walked⟩ := Except.exists_of_bind_eq_ok walked
      exact ih (sound.directory_of_enter directory entered) walked

/-- A spot with a name of its own is inside a directory. -/
theorem spot_inside {path : String} {spot : Spot} (found : tree.spot path = .ok spot)
    (named : spot.isNamed = true)
    : ∃ directory name,
        spot.location = directory ++ [name] ∧ tree.lookup directory = some .directory := by
  rcases spot_cases found with ⟨_, _, unnamed⟩ | ⟨front, name, directory, _, walked, stepped⟩
  · rw [named] at unnamed
    cases unnamed
  · exact ⟨directory, name, (lastStep_follow stepped).2 named,
      sound.directory_of_walk (sound.directory_startOf path) walked⟩

end Sound

/-- Every directory of one tree is one of the other, in which relative paths begin at the same
place.
-/
structure Keeps (tree after : Tree) : Prop where
  home : after.home = tree.home
  directories : ∀ place, tree.lookup place = some .directory → after.lookup place = some .directory

namespace Keeps

variable {after : Tree} (keeps : tree.Keeps after)

include keeps

theorem enter {last : Location} (entered : tree.enter place name = .ok last)
    : after.enter place name = .ok last := by
  unfold Tree.enter at entered ⊢
  by_cases stays : name = Path.here
  · rwa [if_pos stays] at entered ⊢
  · rw [if_neg stays] at entered ⊢
    by_cases back : name = Path.above
    · rwa [if_pos back] at entered ⊢
    · rw [if_neg back] at entered ⊢
      by_cases long : isTooLong name = true
      · rwa [if_pos long] at entered ⊢
      · rw [if_neg long] at entered ⊢
        cases found : tree.lookup (place ++ [name]) with
        | none =>
            rw [found] at entered
            cases entered
        | some entry =>
            rw [found] at entered
            cases entry with
            | file | sealed => cases entered
            | directory => rwa [keeps.directories _ found]

theorem walk {last : Location} {steps : List Name} (walked : tree.walk place steps = .ok last)
    : after.walk place steps = .ok last := by
  induction steps generalizing place with
  | nil => exact walked
  | cons name rest ih =>
      obtain ⟨next, entered, walked⟩ := Except.exists_of_bind_eq_ok walked
      rw [Tree.walk, keeps.enter entered, Except.ok_bind]
      exact ih walked

/-- A path that can be followed still leads to the same spot. -/
theorem spot {path : String} {spot : Spot} (found : tree.spot path = .ok spot)
    : after.spot path = .ok spot := by
  have start : after.startOf path = tree.startOf path := by rw [startOf, startOf, keeps.home]
  rw [spot_eq] at found ⊢
  obtain ⟨_, sayable, found⟩ := Except.exists_of_bind_eq_ok found
  rw [sayable, Except.ok_bind, start]
  cases last : (Path.steps path).getLast? with
  | none => rwa [last] at found
  | some name =>
      rw [last] at found
      obtain ⟨directory, walked, stepped⟩ := Except.exists_of_bind_eq_ok found
      dsimp only
      rw [keeps.walk walked]
      exact stepped

end Keeps

-----------------------------------------------------------------------------------------
-- Fresh places
-----------------------------------------------------------------------------------------

theorem le_foldl_max {n m : Nat} {numbers : List Nat} (small : n ≤ m ∨ n ∈ numbers)
    : n ≤ numbers.foldl max m := by
  induction numbers generalizing m with
  | nil => simpa using small
  | cons first rest ih =>
      refine ih ?_
      rcases small with small | member
      · exact .inl (Nat.le_trans small (Nat.le_max_left _ _))
      · rcases List.mem_cons.mp member with rfl | later
        · exact .inl (Nat.le_max_right _ _)
        · exact .inr later

theorem isName_freshName (tree : Tree) (place : Location)
    : Path.IsName (tree.freshName place) ∧ tree.freshName place ≠ Path.above := by
  have spelled : tree.freshName place = '.' :: 't' :: 'm' :: 'p' :: List.replicate
      (((tree.namesIn place).map List.length).foldl max 0 + 1) '0' := rfl
  rw [spelled]
  refine ⟨⟨nofun, ?_, nofun⟩, nofun⟩
  simp only [List.mem_cons, List.mem_replicate, not_or, not_and]
  exact ⟨by decide, by decide, by decide, by decide, fun _ => by decide⟩

/-- Nothing stands at a fresh place, since its name is longer than all names in its directory. -/
theorem lookup_freshLocation (tree : Tree) (place : Location)
    : tree.lookup (tree.freshLocation place) = none := by
  by_contra stands
  have inside : tree.freshLocation place ≠ [] := by simp [freshLocation]
  rw [lookup, if_neg inside, Option.map_eq_none_iff, List.find?_eq_none] at stands
  push Not at stands
  obtain ⟨candidate, member, same⟩ := stands
  have here : candidate.1 = tree.freshLocation place := of_decide_eq_true same
  have named : tree.freshName place ∈ tree.namesIn place := by
    refine List.mem_filterMap.mpr ⟨candidate, member, ?_⟩
    simp [here, freshLocation]
  have short : (tree.freshName place).length
      ≤ ((tree.namesIn place).map List.length).foldl max 0 :=
    le_foldl_max (.inr (List.mem_map_of_mem named))
  simp only [freshName, List.length_append, List.length_replicate] at short
  omega

theorem Sound.put_fresh (sound : tree.Sound) {place : Location} (entry : Entry)
    (inside : tree.lookup place = some .directory)
    : (tree.put (tree.freshLocation place) entry).Sound := by
  refine sound.put entry inside ?_
  rw [← freshLocation, lookup_freshLocation]
  simp

end DocPipeline.Tree
