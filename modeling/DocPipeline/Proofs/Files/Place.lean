import DocPipeline.Files.Replace
import DocPipeline.Proofs.Except
import DocPipeline.Proofs.Text.Split

/-! The places that paths denote. A path denotes a place whether or not anything stands there, and
on the way to it lie the places that its names lead to one after the other. Wherever a path can be
followed in a tree, it leads to the place that it denotes.
-/

namespace DocPipeline

-----------------------------------------------------------------------------------------
-- Names
-----------------------------------------------------------------------------------------

namespace Path

/-- A name that a path can hold: it says something, and it is no text of several names. -/
structure IsName (name : Name) : Prop where
  spoken : name ≠ []
  single : '/' ∉ name
  moves : name ≠ here

theorem isName_of_mem_names {path : String} {name : Name} (member : name ∈ names path)
    : IsName name := by
  obtain ⟨inSteps, moves⟩ := List.mem_filter.mp member
  obtain ⟨inParts, spoken⟩ := List.mem_filter.mp inSteps
  exact ⟨by simpa using spoken, Text.not_mem_of_mem_splitAt inParts, by simpa using moves⟩

variable {absolute : Bool} {names : List Name}

/-- The names of a path that is put together from names are these names. -/
theorem names_ofNames (absolute : Bool) (valid : ∀ name ∈ names, IsName name)
    : Path.names (ofNames absolute names) = names := by
  have parts : (Text.splitAt '/' (Text.joinWith '/' names)).filter (!·.isEmpty) = names := by
    by_cases some : names = []
    · rw [some]
      rfl
    · rw [Text.splitAt_joinWith some fun name member => (valid name member).single]
      exact List.filter_eq_self.mpr fun name member => by simpa using (valid name member).spoken
  have stepped : steps (ofNames absolute names) = names := by
    cases absolute with
    | false => simpa [steps, ofNames] using parts
    | true => simpa [steps, ofNames, Text.splitAt_mark] using parts
  rw [Path.names, stepped]
  exact List.filter_eq_self.mpr fun name member => by simpa using (valid name member).moves

/-- Such a path starts at the root if it is meant to, since no name begins with a slash. -/
theorem isAbsolute_ofNames (absolute : Bool) (valid : ∀ name ∈ names, IsName name)
    : isAbsolute (ofNames absolute names) = absolute := by
  cases absolute with
  | true => simp [isAbsolute, ofNames]
  | false =>
      cases names with
      | nil => rfl
      | cons first rest =>
          obtain ⟨spoken, single, _⟩ := valid first List.mem_cons_self
          obtain ⟨c, cs, rfl⟩ := List.exists_cons_of_ne_nil spoken
          have other : c ≠ '/' := fun same => single (same ▸ List.mem_cons_self)
          cases rest <;> simp [isAbsolute, ofNames, Text.joinWith, List.intercalate, other]

end Path

-----------------------------------------------------------------------------------------
-- Places
-----------------------------------------------------------------------------------------

namespace Location

/-- The place to which names lead from another one. -/
def follow (place : Location) : List Name → Location
  | [] => place
  | name :: rest => follow (if name = Path.above then place.dropLast else place ++ [name]) rest

theorem follow_append (place : Location) (names more : List Name)
    : follow place (names ++ more) = follow (follow place names) more := by
  induction names generalizing place with
  | nil => rfl
  | cons name rest ih => exact ih _

/-- Names that never lead back lead to the place behind them. -/
theorem follow_of_plain {names : List Name} (place : Location) (plain : Path.above ∉ names)
    : follow place names = place ++ names := by
  induction names generalizing place with
  | nil => exact (List.append_nil place).symm
  | cons name rest ih =>
      rw [List.mem_cons, not_or] at plain
      rw [follow, if_neg (Ne.symm plain.1), ih _ plain.2, List.append_assoc]
      rfl

end Location

namespace Tree

open Location (follow)

/-- The place at which a path begins. -/
def startOf (tree : Tree) (path : String) : Location :=
  if Path.isAbsolute path then [] else tree.home

/-- The place that a path denotes, whatever stands there. -/
def placeOf (tree : Tree) (path : String) : Location :=
  follow (tree.startOf path) (Path.names path)

/-- The place lies on the way to the one that a path denotes, as the path is spelled. -/
def OnWay (tree : Tree) (path : String) (place : Location) : Prop :=
  ∃ front, front <+: (Path.names path).dropLast ∧ place = follow (tree.startOf path) front

variable {tree : Tree} {path : String}

theorem placeOf_of_home {after : Tree} (home : after.home = tree.home) (path : String)
    : after.placeOf path = tree.placeOf path := by
  rw [placeOf, placeOf, startOf, startOf, home]

theorem onWay_of_home {after : Tree} (home : after.home = tree.home) (path : String)
    : after.OnWay path = tree.OnWay path := by
  funext place
  rw [OnWay, OnWay, startOf, startOf, home]

theorem placeOf_ofNames {names : List Name} (tree : Tree) (absolute : Bool)
    (valid : ∀ name ∈ names, Path.IsName name)
    : tree.placeOf (Path.ofNames absolute names)
      = follow (if absolute then [] else tree.home) names := by
  rw [placeOf, startOf, Path.names_ofNames absolute valid, Path.isAbsolute_ofNames absolute valid]

/-- The parent of a path and all parents of it lie on the way to the path, since their names are the
first ones of the path.
-/
theorem onWay_of_mem_withParents {directory : String}
    (member : directory ∈ Path.withParents (Path.parent path))
    : tree.OnWay path (tree.placeOf directory) := by
  have valid {names : List Name} (shorter : names <+: (Path.names path).dropLast)
      : ∀ name ∈ names, Path.IsName name := fun name inside =>
    Path.isName_of_mem_names (List.dropLast_subset _ (shorter.subset inside))
  have leads {names : List Name} (shorter : names <+: (Path.names path).dropLast)
      : tree.OnWay path (tree.placeOf (Path.ofNames (Path.isAbsolute path) names)) :=
    ⟨names, shorter, placeOf_ofNames tree _ (valid shorter)⟩
  rcases List.mem_cons.mp (List.mem_filter.mp member).1 with rfl | parent
  · exact leads List.prefix_rfl
  · rw [Path.parent, Path.names_ofNames _ (valid List.prefix_rfl),
      Path.isAbsolute_ofNames _ (valid List.prefix_rfl)] at parent
    obtain ⟨n, _, rfl⟩ := List.mem_map.mp parent
    exact leads (List.take_prefix n _)

/-- So do the directory for the file of a path and its parents; a path without a parent is one from
where relative paths begin.
-/
theorem onWay_of_mem_withParents_directoryFor {directory : String}
    (member : directory ∈ Path.withParents (directoryFor path))
    : tree.OnWay path (tree.placeOf directory) := by
  unfold directoryFor at member
  by_cases bare : (Path.parent path).isEmpty = true
  · rw [if_pos bare] at member
    obtain rfl : directory = "." := by
      have only : Path.withParents "." = ["."] := by decide
      rw [only] at member
      exact List.mem_singleton.mp member
    refine ⟨[], List.nil_prefix, ?_⟩
    have relative : Path.isAbsolute path = false := by
      cases absolute : Path.isAbsolute path with
      | false => rfl
      | true =>
          rw [Path.parent, absolute] at bare
          simp [Path.ofNames] at bare
    simp only [startOf, relative]
    rfl
  · rw [if_neg bare] at member
    exact onWay_of_mem_withParents member

/-- Only what is above its place lies on the way to a path that never leads back. -/
theorem OnWay.prefix_of_plain {place : Location} (onWay : tree.OnWay path place)
    (plain : Path.above ∉ Path.names path) : place <+: tree.placeOf path := by
  obtain ⟨front, shorter, rfl⟩ := onWay
  have inside : front <+: Path.names path := shorter.trans (List.dropLast_prefix _)
  rw [placeOf, Location.follow_of_plain _ plain,
    Location.follow_of_plain _ fun back => plain (inside.subset back)]
  exact (List.prefix_append_right_inj _).mpr inside

theorem OnWay.ne_of_plain {place : Location} (onWay : tree.OnWay path place)
    (plain : Path.above ∉ Path.names path) (further : Path.names path ≠ [])
    : place ≠ tree.placeOf path := by
  obtain ⟨front, shorter, rfl⟩ := onWay
  have inside : front <+: Path.names path := shorter.trans (List.dropLast_prefix _)
  intro same
  rw [placeOf, Location.follow_of_plain _ plain,
    Location.follow_of_plain _ fun back => plain (inside.subset back)] at same
  have short := shorter.length_le
  rw [List.append_cancel_left same, List.length_dropLast] at short
  have := List.length_pos_iff.mpr further
  omega

-----------------------------------------------------------------------------------------
-- Following paths
-----------------------------------------------------------------------------------------

theorem enter_follow {place last : Location} {name : Name}
    (entered : tree.enter place name = .ok last)
    : last = follow place ([name].filter (· != Path.here)) := by
  unfold enter at entered
  by_cases stays : name = Path.here
  · rw [if_pos stays] at entered
    simpa [stays, follow] using (Except.ok.inj entered).symm
  · rw [if_neg stays] at entered
    have kept : [name].filter (· != Path.here) = [name] := by simp [stays]
    rw [kept]
    by_cases back : name = Path.above
    · rw [if_pos back] at entered
      simpa [follow, back] using (Except.ok.inj entered).symm
    · rw [if_neg back] at entered
      split at entered
      · cases entered
      · split at entered
        · cases entered
        · simpa [follow, back] using (Except.ok.inj entered).symm
        · cases entered

theorem walk_follow {place last : Location} {steps : List Name}
    (walked : tree.walk place steps = .ok last)
    : last = follow place (steps.filter (· != Path.here)) := by
  induction steps generalizing place with
  | nil => exact (Except.ok.inj walked).symm
  | cons name rest ih =>
      obtain ⟨next, entered, walked⟩ := Except.exists_of_bind_eq_ok walked
      rw [← List.singleton_append, List.filter_append, Location.follow_append,
        ← enter_follow entered]
      exact ih walked

/-- A last step leads on like any other one, by cases on its name. -/
theorem lastStep_follow {place : Location} {name : Name} {slash : Bool} {spot : Spot}
    (stepped : lastStep place name slash = .ok spot)
    : spot.location = follow place ([name].filter (· != Path.here))
      ∧ (spot.isNamed = true → spot.location = place ++ [name]) := by
  unfold lastStep at stepped
  by_cases stays : name = Path.here
  · rw [if_pos stays] at stepped
    obtain rfl := Except.ok.inj stepped
    exact ⟨by simp [stays, follow], nofun⟩
  · rw [if_neg stays] at stepped
    have kept : [name].filter (· != Path.here) = [name] := by simp [stays]
    rw [kept]
    by_cases back : name = Path.above
    · rw [if_pos back] at stepped
      obtain rfl := Except.ok.inj stepped
      exact ⟨by simp [back, follow], nofun⟩
    · rw [if_neg back] at stepped
      split at stepped
      · cases stepped
      · obtain rfl := Except.ok.inj stepped
        exact ⟨by simp [back, follow], fun _ => rfl⟩

/-- A text that is no path of any tree. -/
def textFault (path : String) : Except PathFault Unit :=
  if path.toList.contains '\x00' then .error .zeroInside
  else if path.isEmpty then .error .missing
  else if pathLimit ≤ path.utf8ByteSize then .error .nameTooLong
  else .ok ()

/-- How a path is followed: its steps before the last one lead to a directory, and the last one to
the spot. A path without steps stays where it begins.
-/
theorem spot_eq (tree : Tree) (path : String)
    : tree.spot path = textFault path >>= fun _ =>
        match (Path.steps path).getLast? with
        | none => .ok ⟨tree.startOf path, false, path.toList.getLast? = some '/'⟩
        | some name =>
          tree.walk (tree.startOf path) (Path.steps path).dropLast >>= fun place =>
            lastStep place name (path.toList.getLast? = some '/') := by
  unfold spot textFault
  by_cases zero : path.toList.contains '\x00' = true
  · simp only [if_pos zero]
    rfl
  · simp only [if_neg zero]
    by_cases none : path.isEmpty = true
    · simp only [if_pos none]
      rfl
    · simp only [if_neg none]
      by_cases long : pathLimit ≤ path.utf8ByteSize
      · simp only [if_pos long]
        rfl
      · simp only [if_neg long]
        rfl

theorem spot_cases {spot : Spot} (found : tree.spot path = .ok spot)
    : (Path.steps path = [] ∧ spot.location = tree.startOf path ∧ spot.isNamed = false)
      ∨ ∃ front name directory,
          Path.steps path = front ++ [name] ∧ tree.walk (tree.startOf path) front = .ok directory
          ∧ lastStep directory name (path.toList.getLast? = some '/') = .ok spot := by
  rw [spot_eq] at found
  obtain ⟨_, _, found⟩ := Except.exists_of_bind_eq_ok found
  cases last : (Path.steps path).getLast? with
  | none =>
      rw [last] at found
      obtain rfl := Except.ok.inj found
      exact .inl ⟨List.getLast?_eq_none_iff.mp last, rfl, rfl⟩
  | some name =>
      rw [last] at found
      obtain ⟨directory, walked, stepped⟩ := Except.exists_of_bind_eq_ok found
      obtain ⟨front, steps⟩ := List.getLast?_eq_some_iff.mp last
      rw [steps, List.dropLast_concat] at walked
      exact .inr ⟨front, name, directory, steps, walked, stepped⟩

/-- A path that can be followed leads to the place that it denotes. -/
theorem spot_location {spot : Spot} (found : tree.spot path = .ok spot)
    : spot.location = tree.placeOf path := by
  rcases spot_cases found with ⟨none, stays, _⟩ | ⟨front, name, directory, steps, walked, stepped⟩
  · rw [stays, placeOf, Path.names, none]
    rfl
  · rw [placeOf, Path.names, steps, List.filter_append, Location.follow_append,
      ← walk_follow walked]
    exact (lastStep_follow stepped).1

end Tree
end DocPipeline
