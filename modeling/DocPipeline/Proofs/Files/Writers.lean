import DocPipeline.Proofs.Files.Writer

/-! Writers of one file that work at the same time. Whatever the order of their steps and wherever
they fail, the target holds what it held at first, or the whole text of the writer whose temporary
file was the last to take its place. Every temporary file belongs to one writer, stands where
nothing was, and is gone when its writer has returned.
-/

namespace DocPipeline

namespace Writing

variable {ι : Type} {path : String} {texts : ι → String} {start : Tree} {state : Writing ι}

-----------------------------------------------------------------------------------------
-- One step
-----------------------------------------------------------------------------------------

/-- The file at the place is the temporary one of a writer. -/
def IsTemporary (state : Writing ι) (place : Location) : Prop :=
  ∃ writer, (state.stage writer).temporary? = some place

/-- Where several writers are, wherever each of them has come to. Each has a temporary file of its
own, which stands where nothing was at first, and the target holds what the last one moved there.
-/
structure Orderly (start : Tree) (path : String) (texts : ι → String) (state : Writing ι)
    : Prop where
  home : state.tree.home = start.home
  sound : state.tree.Sound
  owns : ∀ writer place, (state.stage writer).temporary? = some place
    → Stage.Owns path (Text.Utf8.encode (texts writer)) state.tree (state.stage writer) place
  vacant : ∀ place, state.IsTemporary place → start.lookup place = none
  apart : ∀ first second place, (state.stage first).temporary? = some place
    → (state.stage second).temporary? = some place → first = second
  elsewhere : ∀ place, ¬ state.IsTemporary place
    → Tree.Fate (start.lookup place) (state.tree.lookup place) (start.OnWay path place)
        (place = start.placeOf path ∧ state.moves ≠ [])
  last : ∀ writer ∈ state.moves.head?,
    state.tree.read path = .ok (Text.Utf8.encode (texts writer))
  moved : ∀ writer, writer ∈ state.moves ↔ (state.stage writer).hasMoved = true
  once : state.moves.Nodup
  reports : ∀ writer failure, state.stage writer = .failed failure
    → ∃ reason, failure = .writeFailed path reason

/-- What a step of one writer is for all of them. -/
structure Passes (path : String) (texts : ι → String) (state after : Writing ι) (stepping : ι)
    : Prop where
  others : ∀ other, other ≠ stepping → after.stage other = state.stage other
  advances : Stage.Advances path (Text.Utf8.encode (texts stepping)) state.tree after.tree
    (state.stage stepping) (after.stage stepping)
  through : (after.stage stepping).hasMoved
    = ((state.stage stepping).hasMoved || (after.stage stepping).isMoved)
  first : (state.stage stepping).hasMoved = true → (after.stage stepping).isMoved = false
  moves : after.moves
    = if (after.stage stepping).isMoved then stepping :: state.moves else state.moves
  fails : ∀ failure, after.stage stepping = .failed failure
    → state.stage stepping = .failed failure ∨ ∃ reason, failure = .writeFailed path reason

/-- A temporary file was there before the step, or it is a new one of the writer that made it. -/
theorem Passes.temporary_cases {after : Writing ι} {stepping writer : ι} {place : Location}
    (passes : Passes path texts state after stepping)
    (has : (after.stage writer).temporary? = some place)
    : (state.stage writer).temporary? = some place
      ∨ writer = stepping ∧ state.tree.lookup place = none := by
  by_cases own : writer = stepping
  · subst own
    exact (passes.advances.opened place has).imp id fun vacant => ⟨rfl, vacant⟩
  · rw [passes.others writer own] at has
    exact .inl has

namespace Orderly

theorem begins (sound : start.Sound) (path : String) (texts : ι → String)
    : Orderly start path texts (Writing.start start) where
  home := rfl
  sound := sound
  owns := nofun
  vacant := nofun
  apart := nofun
  elsewhere := fun _ _ => .same rfl
  last := nofun
  moved := fun _ => ⟨nofun, nofun⟩
  once := .nil
  reports := nofun

/-- When no writer has anything under way, only the target has changed, and directories on the way
to it are new.
-/
theorem becomes (orderly : Orderly start path texts state)
    (rest : ∀ writer, (state.stage writer).rests = true)
    : start.Becomes state.tree (start.OnWay path)
        (fun place => place = start.placeOf path ∧ state.moves ≠ []) := by
  refine ⟨orderly.home, orderly.sound, fun place => orderly.elsewhere place ?_⟩
  rintro ⟨writer, has⟩
  rw [Stage.temporary?_of_rests (rest writer)] at has
  cases has

variable {after : Writing ι} {stepping : ι} (orderly : Orderly start path texts state)

include orderly

/-- Nothing was at first where nothing is now. -/
theorem vacant_of_vacant {place : Location} (vacant : state.tree.lookup place = none)
    : start.lookup place = none := by
  by_cases temporary : state.IsTemporary place
  · exact orderly.vacant place temporary
  · cases orderly.elsewhere place temporary with
    | same unchanged => rwa [← unchanged]
    | directory _ before => exact before
    | file _ _ _ written => simp [written] at vacant

theorem file_of_temporary {writer : ι} {place : Location}
    (has : (state.stage writer).temporary? = some place)
    : place ≠ state.tree.placeOf path ∧ ∃ bytes, state.tree.lookup place = some (.file bytes) := by
  obtain ⟨beside, bytes, here, _⟩ := orderly.owns writer place has
  exact ⟨beside, bytes, here⟩

variable (passes : Passes path texts state after stepping)

include passes

theorem owns_after (writer : ι) (place : Location)
    (has : (after.stage writer).temporary? = some place)
    : Stage.Owns path (Text.Utf8.encode (texts writer)) after.tree (after.stage writer) place := by
  by_cases own : writer = stepping
  · subst own
    exact passes.advances.owns place has
  · rw [passes.others writer own] at has ⊢
    obtain ⟨beside, bytes, here, whole⟩ := orderly.owns writer place has
    have other : (state.stage stepping).temporary? ≠ some place := fun had =>
      own (orderly.apart writer stepping place has had)
    refine ⟨?_, bytes, ?_, whole⟩
    · rwa [Tree.placeOf_of_home passes.advances.home]
    · exact passes.advances.lookup_file here other fun target => absurd target beside

/-- Two writers have the same temporary file only if they are the same, since a new one stands where
nothing was.
-/
theorem apart_after (first second : ι) (place : Location)
    (one : (after.stage first).temporary? = some place)
    (other : (after.stage second).temporary? = some place) : first = second := by
  rcases passes.temporary_cases one with had | ⟨rfl, vacant⟩
  · rcases passes.temporary_cases other with had' | ⟨rfl, vacant⟩
    · exact orderly.apart first second place had had'
    · obtain ⟨_, bytes, here⟩ := orderly.file_of_temporary had
      simp [here] at vacant
  · rcases passes.temporary_cases other with had | ⟨rfl, _⟩
    · obtain ⟨_, bytes, here⟩ := orderly.file_of_temporary had
      simp [here] at vacant
    · rfl

/-- What has become of a place where no temporary file is: the one that was there is gone, or
nothing but the step has changed it.
-/
theorem elsewhere_after (place : Location) (without : ¬ after.IsTemporary place)
    : Tree.Fate (start.lookup place) (after.tree.lookup place) (start.OnWay path place)
        (place = start.placeOf path ∧ after.moves ≠ []) := by
  have still : (after.stage stepping).temporary? ≠ some place := fun has =>
    without ⟨stepping, has⟩
  by_cases had : (state.stage stepping).temporary? = some place
  · refine .same ?_
    rw [orderly.vacant place ⟨stepping, had⟩]
    exact (passes.advances.gone place had).resolve_left still
  · have before : ¬ state.IsTemporary place := by
      rintro ⟨writer, has⟩
      have other : writer ≠ stepping := fun own => had (own ▸ has)
      exact without ⟨writer, passes.others writer other ▸ has⟩
    refine (orderly.elsewhere place before).mono id ?_ |>.trans
      ((passes.advances.elsewhere place had still).mono ?_ ?_)
    · rintro ⟨target, moved⟩
      refine ⟨target, ?_⟩
      rw [passes.moves]
      split
      · simp
      · exact moved
    · rw [Tree.onWay_of_home orderly.home]
      exact id
    · rintro ⟨target, moved⟩
      rw [passes.moves, if_pos moved, ← Tree.placeOf_of_home orderly.home]
      exact ⟨target, by simp⟩

theorem last_after (writer : ι) (last : writer ∈ after.moves.head?)
    : after.tree.read path = .ok (Text.Utf8.encode (texts writer)) := by
  rw [passes.moves] at last
  by_cases moved : (after.stage stepping).isMoved = true
  · rw [if_pos moved] at last
    obtain rfl := Option.some.inj last
    exact passes.advances.moved moved
  · rw [if_neg moved] at last
    exact passes.advances.read (orderly.owns stepping) (by simpa using moved)
      (orderly.last writer last)

theorem moved_after (writer : ι)
    : writer ∈ after.moves ↔ (after.stage writer).hasMoved = true := by
  have before := orderly.moved writer
  rw [passes.moves]
  by_cases own : writer = stepping
  · subst own
    rw [passes.through]
    by_cases moved : (after.stage writer).isMoved = true
    · simp [moved]
    · simp [moved, before]
  · rw [passes.others writer own, ← before]
    split
    · simp [own]
    · rfl

/-- No writer moves its file twice. -/
theorem once_after : after.moves.Nodup := by
  rw [passes.moves]
  by_cases moved : (after.stage stepping).isMoved = true
  · rw [if_pos moved]
    refine List.nodup_cons.mpr ⟨fun again => ?_, orderly.once⟩
    have never := passes.first ((orderly.moved stepping).mp again)
    simp [moved] at never
  · rw [if_neg moved]
    exact orderly.once

/-- Whoever fails names the file. -/
theorem reports_after (writer : ι) (failure : Failure)
    (failed : after.stage writer = .failed failure)
    : ∃ reason, failure = .writeFailed path reason := by
  by_cases own : writer = stepping
  · subst own
    exact (passes.fails failure failed).elim (orderly.reports writer failure) id
  · rw [passes.others writer own] at failed
    exact orderly.reports writer failure failed

/-- One step of one writer keeps all writers in order. -/
theorem passed : Orderly start path texts after where
  home := passes.advances.home.trans orderly.home
  sound := passes.advances.sound
  owns := orderly.owns_after passes
  vacant := by
    rintro place ⟨writer, has⟩
    rcases passes.temporary_cases has with had | ⟨_, vacant⟩
    · exact orderly.vacant place ⟨writer, had⟩
    · exact orderly.vacant_of_vacant vacant
  apart := orderly.apart_after passes
  elsewhere := orderly.elsewhere_after passes
  last := orderly.last_after passes
  moved := orderly.moved_after passes
  once := orderly.once_after passes
  reports := orderly.reports_after passes

end Orderly

variable [DecidableEq ι]

theorem step_passes (orderly : Orderly start path texts state) {turn : Turn ι}
    (fresh : Path.fileName? path ≠ some turn.name)
    : Passes path texts state (state.step path texts turn) turn.writer := by
  have advances := Stage.next_advances orderly.sound fresh (orderly.owns turn.writer)
  obtain ⟨through, first⟩ := Stage.hasMoved_next path (Text.Utf8.encode (texts turn.writer)) turn
    state.tree (state.stage turn.writer)
  have own : (state.step path texts turn).stage turn.writer
      = ((state.stage turn.writer).next path (Text.Utf8.encode (texts turn.writer)) turn
          state.tree).1 := if_pos rfl
  refine ⟨fun other apart => if_neg apart, ?_, ?_, ?_, ?_, fun failure failed => ?_⟩
  · rw [own]
    exact advances
  · rw [own, through]
  · rw [own]
    exact first
  · rw [own]
    rfl
  · rw [own] at failed
    exact Stage.failed_next failed

-----------------------------------------------------------------------------------------
-- All steps
-----------------------------------------------------------------------------------------

theorem run_replicate (path : String) (texts : ι → String) (state : Writing ι)
    (turn : Turn ι) (n : Nat)
    : let last := state.run path texts (List.replicate n turn)
      (last.stage turn.writer, last.tree)
      = Stage.goOn path (Text.Utf8.encode (texts turn.writer)) turn n
          (state.stage turn.writer, state.tree) := by
  induction n generalizing state with
  | zero => rfl
  | succ n ih =>
      have own : (state.step path texts turn).stage turn.writer = _ := if_pos rfl
      refine (ih (state.step path texts turn)).trans ?_
      rw [own]
      rfl

/-- When only one writer has its turns, the file is written all at once. -/
theorem run_eq_replace (path : String) (texts : ι → String) (tree : Tree) (turn : Turn ι)
    (sure : turn.fault = none) (free : turn.name = Stage.freeName tree path)
    : let last := (Writing.start tree).run path texts (List.replicate 6 turn)
      let replaced := tree.replace path (Text.Utf8.encode (texts turn.writer))
      last.stage turn.writer = .returned replaced.1 ∧ last.tree = replaced.2 := by
  intro last replaced
  have steps := run_replicate path texts (Writing.start tree) turn 6
  change _ = Stage.goOn path _ turn 6 (.waiting, tree) at steps
  rw [Stage.goOn_eq_replace turn sure path _ tree free] at steps
  exact Prod.mk.inj steps

/-- Any steps of the writers, in any order, keep them in order; by induction on the steps. -/
theorem Orderly.run (orderly : Orderly start path texts state) (turns : List (Turn ι))
    (fresh : ∀ turn ∈ turns, Path.fileName? path ≠ some turn.name)
    : Orderly start path texts (state.run path texts turns) := by
  induction turns generalizing state with
  | nil => exact orderly
  | cons turn rest ih =>
      have first := orderly.passed (step_passes orderly (fresh turn List.mem_cons_self))
      exact ih first fun turn member => fresh turn (List.mem_cons_of_mem _ member)

/-- A writer that was alone and has returned has written the file all at once or not at all,
wherever it was stopped.
-/
theorem Orderly.replaced {texts : Unit → String} {state : Writing Unit}
    (orderly : Orderly start path texts state) {result : Except Failure Unit}
    (returned : state.stage () = .returned result)
    : start.Replaced path (Text.Utf8.encode (texts ())) result state.tree := by
  have becomes := orderly.becomes fun _ => by
    rw [returned]
    cases result <;> rfl
  cases result with
  | ok _ =>
      have moved : () ∈ state.moves := (orderly.moved ()).mpr (by rw [returned]; rfl)
      refine .done (orderly.last () ?_) (becomes.mono (fun _ => id) fun _ => And.left)
      cases moves : state.moves with
      | nil => simp [moves] at moved
      | cons first rest => rfl
  | error failure =>
      obtain ⟨reason, rfl⟩ := orderly.reports () failure returned
      have still : state.moves = [] := by
        refine List.eq_nil_iff_forall_not_mem.mpr fun writer moved => ?_
        have through := (orderly.moved writer).mp moved
        rw [returned] at through
        cases through
      exact .failed reason (becomes.mono (fun _ => id) fun _ target => target.2 still)

/-- Writers of one file never mix, at any moment of any run and wherever they fail. Once a temporary
file has taken the target's place, the whole content of the last writer whose file did so is read
there; before that everything at the target and below it is as it was at first, but for temporary
files below it, if creating the parents of the path spares that place. No temporary file is ever at
the target itself. A writer has moved its file exactly if it is among those that did, once each; and
when no writer has anything under way, nothing has changed but the target and the directories that
were missing on the way to it, so no temporary file is left.
-/
theorem run_never_mixes (texts : ι → String) (path : String) (sound : start.Sound)
    (turns : List (Turn ι)) (fresh : ∀ turn ∈ turns, Path.fileName? path ≠ some turn.name)
    : let state := (Writing.start start).run path texts turns
      let place := start.placeOf path
      (∀ writer ∈ state.moves.head?, state.tree.read path = .ok (Text.Utf8.encode (texts writer)))
      ∧ (state.moves = [] → start.Spares path place → ∀ other, place <+: other
        → ¬ state.IsTemporary other → state.tree.lookup other = start.lookup other)
      ∧ ¬ state.IsTemporary place
      ∧ (∀ writer, writer ∈ state.moves ↔ (state.stage writer).hasMoved = true)
      ∧ state.moves.Nodup
      ∧ ((∀ writer, (state.stage writer).rests = true)
        → start.Becomes state.tree (start.OnWay path)
            (fun other => other = place ∧ state.moves ≠ [])) := by
  intro state place
  have orderly : Orderly start path texts state := (Orderly.begins sound path texts).run turns fresh
  refine ⟨orderly.last, ?_, ?_, orderly.moved, orderly.once, orderly.becomes⟩
  · intro none spares other below without
    cases orderly.elsewhere other without with
    | same unchanged => exact unchanged
    | directory onWay vacant => exact absurd below (spares other onWay vacant)
    | file target => exact absurd none target.2
  · rintro ⟨writer, has⟩
    refine (orderly.owns writer place has).beside ?_
    exact (Tree.placeOf_of_home orderly.home path).symm

/-- A tree with nothing in it but its root. -/
def bare : Tree := ⟨[], []⟩

theorem bare_sound : bare.Sound where
  home := rfl
  parent := fun place name stands => absurd (by simp [Tree.lookup, bare]) stands

/-- The turns of two writers. One of them finds the name for its temporary file taken, takes another
one, and is still the first to move its file.
-/
def turnsOfTwo : List (Turn Bool) :=
  [⟨false, [], none, 0⟩, ⟨true, [], none, 0⟩, ⟨false, ['a'], none, 0⟩, ⟨true, ['a'], none, 0⟩,
    ⟨true, ['b'], none, 0⟩, ⟨false, [], none, 0⟩, ⟨true, [], none, 0⟩, ⟨true, [], none, 0⟩,
    ⟨true, [], none, 0⟩, ⟨true, [], none, 0⟩, ⟨false, [], none, 0⟩, ⟨false, [], none, 0⟩,
    ⟨false, [], none, 0⟩]

/-- The file of two writers holds the text of the one that was the last to move its own there, and
nothing else is left but the directory that was created for it.
-/
theorem run_never_mixes_of_two
    : let state := (Writing.start bare).run "new/out" (fun one => if one then "Un" else "Deux")
        turnsOfTwo
      state.moves = [false, true]
      ∧ state.tree.read "new/out" = .ok (Text.Utf8.encode "Deux")
      ∧ state.tree.lookup ["new".toList] = some .directory
      ∧ bare.Becomes state.tree (bare.OnWay "new/out") (fun other =>
          other = bare.placeOf "new/out" ∧ state.moves ≠ []) := by
  intro state
  obtain ⟨last, _, _, _, _, ends⟩ :=
    run_never_mixes (fun one => if one then "Un" else "Deux") "new/out" bare_sound turnsOfTwo
      (by decide +kernel)
  have moves : state.moves = [false, true] := by decide +kernel
  refine ⟨moves, last false ?_, by decide +kernel, ends (by decide +kernel)⟩
  change false ∈ state.moves.head?
  rw [moves]
  rfl

/-- A single writer whose path leads back through its own place: it moves no file, and what was
nothing is a directory when it has returned.
-/
theorem run_creates_own_place
    : let turn : Turn Unit := ⟨(), ['a'], none, 0⟩
      let state := (Writing.start bare).run "out/../out" (fun _ => "Un") (List.replicate 6 turn)
      state.moves = []
      ∧ state.stage () = .failed (.writeFailed "out/../out" "Is a directory (os error 21)")
      ∧ bare.placeOf "out/../out" = ["out".toList]
      ∧ bare.lookup ["out".toList] = none
      ∧ state.tree.lookup ["out".toList] = some .directory := by
  decide +kernel

end Writing
end DocPipeline
