import DocPipeline.Proofs.Document.Frame
import DocPipeline.Proofs.Files.Writers
import DocPipeline.Proofs.Run.Protocol

/-! Files of runs, all or nothing. A run that delivers a text leaves the whole text in its file, and
a run that fails leaves what stood there. Nothing else changes but a document that is kept and the
directories on the way to the two files, so no temporary file is left in either case.
-/

namespace DocPipeline

namespace Run

variable {σ : Type}

/-- What is done with a document leaves the tree as it is. -/
theorem process_tree (plan : Plan σ) (policy : Policy) (document : Document) (scene : Scene σ)
    : ((process plan policy document).outcome scene).2.tree = scene.tree := by
  cases measured : document.size scene.tree with
  | error failure => rw [process_outcome_of_unmeasured measured]
  | ok size =>
      obtain ⟨turns, result, last, _, transcribed⟩ :=
        process_transcribed plan policy document size scene measured
      rw [transcribed.outcome]
      exact transcribed.tree

theorem resolve_outcome (plan : Plan σ) (input : String) (scene : Scene σ)
    {result : Except Failure Document} {after : Tree} {traffic : Web.Traffic}
    (resolved : Document.resolve plan.peer plan.settings.downloadSeconds.toNat plan.settings.workDir
      input scene.tree scene.outside.traffic = (result, after, traffic))
    : (resolve plan input).outcome scene
      = (result, { scene with
          tree := after, outside := { scene.outside with traffic := traffic } }) := by
  simp only [resolve, Phase.outcome, ExceptT.run_mk, StateT.run]
  rw [resolved]

/-- A graph that breaks a rule leaves the tree as it is. -/
theorem deliver_tree_of_refused {plan : Plan σ} {failure : Failure} (input : String)
    (scene : Scene σ) (refused : outputPolicy plan.graph = .error failure)
    : ((deliver plan input).outcome scene).2.tree = scene.tree := by
  have ends : (deliver plan input).outcome scene = (.error failure, scene) :=
    Phase.outcome_bind_error (by rw [Phase.outcome_purely, refused])
  rw [ends]

/-- Every other run leaves the tree in which its document was found, freed of what was there for
that document only.
-/
theorem deliver_tree_of_resolved {plan : Plan σ} {policy : Policy} {input : String}
    {scene : Scene σ} {result : Except Failure Document} {after : Tree} {traffic : Web.Traffic}
    (found : outputPolicy plan.graph = .ok policy)
    (resolved : Document.resolve plan.peer plan.settings.downloadSeconds.toNat plan.settings.workDir
      input scene.tree scene.outside.traffic = (result, after, traffic))
    : ((deliver plan input).outcome scene).2.tree
      = match result with
        | .ok document => document.release after
        | .error _ => after := by
  have outcome := resolve_outcome plan input scene resolved
  rw [deliver_outcome_of_policy input scene found]
  cases result with
  | error failure => rw [Phase.outcome_bind_error outcome]
  | ok document =>
      rw [Phase.outcome_bind_ok outcome]
      change document.release ((process plan policy document).outcome _).2.tree = _
      rw [process_tree]

/-- A run without a file for its text leaves a document that is kept, and the directories on the way
to it.
-/
theorem deliver_becomes (plan : Plan σ) (input : String) (scene : Scene σ)
    (sound : scene.tree.Sound)
    : scene.tree.Becomes ((deliver plan input).outcome scene).2.tree
        (Document.OnWayToKept scene.tree plan.settings.workDir input)
        (Document.IsKept scene.tree plan.settings.workDir input) := by
  cases found : outputPolicy plan.graph with
  | error failure =>
      rw [deliver_tree_of_refused input scene found]
      exact .refl sound
  | ok policy =>
      have becomes := Document.resolve_becomes sound plan.peer
        plan.settings.downloadSeconds.toNat plan.settings.workDir input scene.outside.traffic
      rcases resolved : Document.resolve plan.peer plan.settings.downloadSeconds.toNat
        plan.settings.workDir input scene.tree scene.outside.traffic with ⟨result, after, traffic⟩
      rw [resolved] at becomes
      rw [deliver_tree_of_resolved found resolved]
      cases result <;> exact becomes

theorem deliverTo_outcome_of_error {plan : Plan σ} {input : String} {scene after : Scene σ}
    {failure : Failure} (path : String)
    (failed : (deliver plan input).outcome scene = (.error failure, after))
    : (deliverTo plan input path).outcome scene = (.error failure, after) :=
  Phase.outcome_bind_error failed

/-- A run that delivers writes its text to the file in the end. -/
theorem deliverTo_outcome_of_ok {plan : Plan σ} {input path : String} {scene between : Scene σ}
    {delivery : Delivery} {result : Except Failure Unit} {after : Tree}
    (delivered : (deliver plan input).outcome scene = (.ok delivery, between))
    (replaced : between.tree.replace path (Text.Utf8.encode delivery.text) = (result, after))
    : (deliverTo plan input path).outcome scene
      = (result.map fun _ => delivery, { between with tree := after }) := by
  rw [deliverTo, Phase.outcome_bind_ok delivered]
  simp only [Phase.outcome, ExceptT.run_mk, StateT.run]
  rw [replaced]

/-- Neither the document that a run keeps nor a directory that it has to create on the way to one of
its files is at the place of a path or below it.
-/
structure LeavesRoom (tree : Tree) (workDir : Option String) (input path : String) : Prop where
  own : tree.Spares path (tree.placeOf path)
  kept : ∀ kept, Document.keptPath? workDir input = some kept
    → tree.Spares kept (tree.placeOf path) ∧ ¬ tree.placeOf path <+: tree.placeOf kept

/-- When no path leads back, it is enough that the document that is kept is not at the place of the
path or below it.
-/
theorem leavesRoom_of_plain {tree : Tree} {workDir : Option String} {input path : String}
    (sound : tree.Sound) (plain : Path.above ∉ Path.names path)
    (kept : ∀ kept, Document.keptPath? workDir input = some kept
      → Path.above ∉ Path.names kept ∧ ¬ tree.placeOf path <+: tree.placeOf kept)
    : LeavesRoom tree workDir input path where
  own := Tree.spares_placeOf sound plain
  kept := by
    intro path found
    obtain ⟨keptPlain, apart⟩ := kept path found
    exact ⟨Tree.spares_of_not_prefix keptPlain apart, apart⟩

/-- Neither the document that is kept nor a directory on the way comes to the place of the path or
below it.
-/
theorem LeavesRoom.lookup_eq {tree after : Tree} {workDir : Option String} {input path : String}
    (room : LeavesRoom tree workDir input path)
    (becomes : tree.Becomes after
      (fun place => Document.OnWayToKept tree workDir input place ∨ tree.OnWay path place)
      (Document.IsKept tree workDir input))
    {place : Location} (below : tree.placeOf path <+: place)
    : after.lookup place = tree.lookup place := by
  refine becomes.lookup_eq ?_ ?_
  · rintro (⟨kept, found, onWay⟩ | onWay) vacant
    · exact (room.kept kept found).1 place onWay vacant below
    · exact room.own place onWay vacant below
  · rintro ⟨kept, found, rfl⟩
    exact (room.kept kept found).2 below

/-- What a run with a file for its text has come to is all or nothing. A delivery leaves exactly the
bytes of its text at the path. A failure leaves everything at the place of the path and below it as
it was, if the run leaves room for that place; the run has failed before the file was begun, and
then has not even created directories for it, or else it could not write to the path. Either way
nothing has changed but that file, a document that is kept, and directories that were missing on the
way to them, so no temporary file is left.
-/
structure IsAllOrNothing (plan : Plan σ) (input path : String) (scene : Scene σ)
    (result : Except Failure Delivery) (after : Tree) : Prop where
  delivers : ∀ delivery, result = .ok delivery
    → ((deliver plan input).outcome scene).1 = .ok delivery
      ∧ after.read path = .ok (Text.Utf8.encode delivery.text)
  spares : ∀ failure, result = .error failure
    → LeavesRoom scene.tree plan.settings.workDir input path
    → ∀ place, scene.tree.placeOf path <+: place → after.lookup place = scene.tree.lookup place
  fails : ∀ failure, result = .error failure
    → ((deliver plan input).outcome scene).1 = .error failure
        ∧ scene.tree.Becomes after (Document.OnWayToKept scene.tree plan.settings.workDir input)
          (Document.IsKept scene.tree plan.settings.workDir input)
      ∨ ∃ delivery reason,
          ((deliver plan input).outcome scene).1 = .ok delivery
          ∧ failure = .writeFailed path reason
  becomes : scene.tree.Becomes after
    (fun place => Document.OnWayToKept scene.tree plan.settings.workDir input place
      ∨ scene.tree.OnWay path place)
    (fun place => Document.IsKept scene.tree plan.settings.workDir input place
      ∨ place = scene.tree.placeOf path)

/-- A run that fails before it has a text is nothing. -/
theorem isAllOrNothing_of_failed {plan : Plan σ} {input : String} {scene after : Scene σ}
    {failure : Failure} (sound : scene.tree.Sound) (path : String)
    (failed : (deliver plan input).outcome scene = (.error failure, after))
    : IsAllOrNothing plan input path scene (.error failure) after.tree := by
  have before := deliver_becomes plan input scene sound
  rw [failed] at before
  refine ⟨nofun, fun _ _ room _ => ?_, ?_, before.mono (fun _ => .inl) (fun _ => .inl)⟩
  · exact room.lookup_eq (before.mono (fun _ => .inl) fun _ => id)
  · rintro other same
    obtain rfl := Except.error.inj same
    exact .inl ⟨by rw [failed], before⟩

/-- A run with a text is all or nothing if the writing of its file is. -/
theorem isAllOrNothing_of_replaced {plan : Plan σ} {input path : String} {scene between : Scene σ}
    {delivery : Delivery} {result : Except Failure Unit} {after : Tree} (sound : scene.tree.Sound)
    (delivered : (deliver plan input).outcome scene = (.ok delivery, between))
    (replaced : between.tree.Replaced path (Text.Utf8.encode delivery.text) result after)
    : IsAllOrNothing plan input path scene (result.map fun _ => delivery) after := by
  have before := deliver_becomes plan input scene sound
  rw [delivered] at before
  have first : scene.tree.Becomes between.tree
      (fun place => Document.OnWayToKept scene.tree plan.settings.workDir input place
        ∨ scene.tree.OnWay path place)
      (Document.IsKept scene.tree plan.settings.workDir input) :=
    before.mono (fun _ => .inl) (fun _ => id)
  cases replaced with
  | failed reason written =>
      rw [Tree.onWay_of_home before.home] at written
      have whole := first.trans (written.mono (fun _ => .inr) fun _ => False.elim)
      refine ⟨nofun, fun _ _ room _ => room.lookup_eq whole, ?_,
        whole.mono (fun _ => id) (fun _ => .inl)⟩
      rintro other same
      obtain rfl := Except.error.inj same
      exact .inr ⟨delivery, reason, by rw [delivered], rfl⟩
  | done reads written =>
      rw [Tree.onWay_of_home before.home, Tree.placeOf_of_home before.home] at written
      refine ⟨?_, nofun, nofun, (first.mono (fun _ => id) (fun _ => .inl)).trans
        (written.mono (fun _ => .inr) (fun _ => .inr))⟩
      rintro other same
      obtain rfl := Except.ok.inj same
      exact ⟨by rw [delivered], reads⟩

/-- A file for the text of a run holds all of it or what it held before. So does a file that is
written step by step, if any of the steps is stopped by a fault of its own: whenever its writer has
returned, the run is all or nothing.
-/
theorem deliverTo_all_or_nothing (plan : Plan σ) (input path : String) (scene : Scene σ)
    (sound : scene.tree.Sound)
    : let outcome := (deliverTo plan input path).outcome scene
      IsAllOrNothing plan input path scene outcome.1 outcome.2.tree
      ∧ ∀ delivery between,
          (deliver plan input).outcome scene = (.ok delivery, between)
          → ∀ turns : List (Writing.Turn Unit),
            (∀ turn ∈ turns, Path.fileName? path ≠ some turn.name)
            → let state := (Writing.start between.tree).run path (fun _ => delivery.text) turns
              ∀ result, state.stage () = .returned result
                → IsAllOrNothing plan input path scene (result.map fun _ => delivery)
                    state.tree := by
  intro outcome
  have before := deliver_becomes plan input scene sound
  constructor
  · rcases ended : (deliver plan input).outcome scene with ⟨result, between⟩
    rw [ended] at before
    cases result with
    | error failure =>
        have goes : outcome = (.error failure, between) := deliverTo_outcome_of_error path ended
        clear_value outcome
        subst goes
        exact isAllOrNothing_of_failed sound path ended
    | ok delivery =>
        rcases replaced : between.tree.replace path (Text.Utf8.encode delivery.text)
          with ⟨result, after⟩
        have written := Tree.replace_replaced before.sound path (Text.Utf8.encode delivery.text)
        rw [replaced] at written
        have goes : outcome = (result.map fun _ => delivery, { between with tree := after }) :=
          deliverTo_outcome_of_ok ended replaced
        clear_value outcome
        subst goes
        exact isAllOrNothing_of_replaced sound ended written
  · intro delivery between delivered turns fresh state result returned
    rw [delivered] at before
    have orderly : Writing.Orderly between.tree path (fun _ => delivery.text) state :=
      (Writing.Orderly.begins before.sound path _).run turns fresh
    exact isAllOrNothing_of_replaced sound delivered (orderly.replaced returned)

/-- A tree with one file at the root hangs together. -/
theorem oneDocument_sound : oneDocument.tree.Sound where
  home := rfl
  parent := by
    intro place name stands
    cases place with
    | nil => rfl
    | cons first rest =>
        exfalso
        exact stands (by simp [Tree.lookup, oneDocument])

/-- The text of a run is in its file, in a directory that was created for it; a run whose file would
be inside another file leaves everything there as it was; and a file keeps what it held if there is
no room for the second half of the text.
-/
theorem deliverTo_all_or_nothing_of_new_directory
    : let written := (deliverTo twoStepPlan "doc.pdf" "new/out.txt").outcome oneDocument
      let refused := (deliverTo twoStepPlan "doc.pdf" "doc.pdf/out.txt").outcome oneDocument
      let full := "No space left on device (os error 28)"
      let turn : Writing.Turn Unit := ⟨(), ['a'], none, 1⟩
      let stopped := (Writing.start oneDocument.tree).run "doc.pdf" (fun _ => "Hi")
        [turn, turn, { turn with fault := some full }, turn]
      written.2.tree.read "new/out.txt" = .ok (Text.Utf8.encode "Hi")
      ∧ written.2.tree.lookup ["new".toList] = some .directory
      ∧ refused.1 = .error (.writeFailed "doc.pdf/out.txt" "File exists (os error 17)")
      ∧ (∀ place, ["doc.pdf".toList, "out.txt".toList] <+: place
        → refused.2.tree.lookup place = oneDocument.tree.lookup place)
      ∧ stopped.stage () = .returned (.error (.writeFailed "doc.pdf" full))
      ∧ ∀ place, ["doc.pdf".toList] <+: place
        → stopped.tree.lookup place = oneDocument.tree.lookup place := by
  intro written refused full turn stopped
  obtain ⟨whole, _⟩ :=
    deliverTo_all_or_nothing twoStepPlan "doc.pdf" "new/out.txt" oneDocument oneDocument_sound
  obtain ⟨nothing, _⟩ :=
    deliverTo_all_or_nothing twoStepPlan "doc.pdf" "doc.pdf/out.txt" oneDocument oneDocument_sound
  obtain ⟨_, stops⟩ :=
    deliverTo_all_or_nothing twoStepPlan "doc.pdf" "doc.pdf" oneDocument oneDocument_sound
  have text : written.1.map Delivery.text = .ok "Hi" := by decide +kernel
  have failure : refused.1
      = .error (.writeFailed "doc.pdf/out.txt" "File exists (os error 17)") := by
    decide +kernel
  have returned : stopped.stage () = .returned (.error (.writeFailed "doc.pdf" full)) := by
    decide +kernel
  have room (path : String) (plain : Path.above ∉ Path.names path)
      : LeavesRoom oneDocument.tree none "doc.pdf" path :=
    leavesRoom_of_plain oneDocument_sound plain fun kept found => by cases found
  have spared := nothing.spares _ failure (room _ (by decide))
  refine ⟨?_, by decide +kernel, failure, spared, returned, ?_⟩
  · cases ended : written.1 with
    | error failure =>
        rw [ended] at text
        cases text
    | ok delivery =>
        rw [ended] at text
        exact Except.ok.inj text ▸ (whole.delivers delivery ended).2
  · have begun :
        ((deliver twoStepPlan "doc.pdf").outcome oneDocument).1.map Delivery.text = .ok "Hi"
        ∧ ((deliver twoStepPlan "doc.pdf").outcome oneDocument).2.tree = oneDocument.tree := by
      decide +kernel
    rcases ended : (deliver twoStepPlan "doc.pdf").outcome oneDocument with ⟨result, between⟩
    rw [ended] at begun
    cases result with
    | error failure => cases begun.1
    | ok delivery =>
        obtain ⟨same, here⟩ :
          Except.ok delivery.text = .ok "Hi" ∧ between.tree = oneDocument.tree := begun
        have stops := stops delivery between ended
        rw [here, Except.ok.inj same] at stops
        exact (stops _ (by decide) _ returned).spares _ rfl (room _ (by decide))

/-- A path that leads back through its own place gets a directory there before its file is refused:
what was nothing is a directory afterwards.
-/
theorem deliverTo_creates_own_place
    : let path := "out/../out"
      let outcome := (deliverTo twoStepPlan "doc.pdf" path).outcome oneDocument
      outcome.1 = .error (.writeFailed path "Is a directory (os error 21)")
      ∧ oneDocument.tree.placeOf path = ["out".toList]
      ∧ oneDocument.tree.lookup ["out".toList] = none
      ∧ outcome.2.tree.lookup ["out".toList] = some .directory
      ∧ oneDocument.tree.entryAt path = .error .missing
      ∧ outcome.2.tree.entryAt path = .ok .directory := by
  decide +kernel

end Run
end DocPipeline
