import DocPipeline.Proofs.Alike
import DocPipeline.Proofs.Run.Transcript

/-! A run that someone listens to beside the same run that nobody listens to. Each phase returns the
same in both, asks the same and leaves the same tree and the same outside, so reports are all that
a listener adds to a run.
-/

namespace DocPipeline

/-- The plan with a listener or without one. -/
def Plan.watching {σ : Type} (plan : Plan σ) (listener : Option Listener) : Plan σ :=
  { plan with settings := { plan.settings with listener := listener } }

/-- Two runs have come to the same point, and the second one has recorded the questions of the first
since they began, but not its reports.
-/
structure Scene.Unheard {σ : Type} (start : List Moment) (heard silent : Scene σ) : Prop where
  tree : heard.tree = silent.tree
  outside : heard.outside = silent.outside
  moments : ∃ moments,
    heard.moments = start ++ moments
    ∧ silent.moments = start ++ (Moment.questions moments).map .asked

namespace Scene.Unheard

variable {σ : Type} {start : List Moment} {heard silent : Scene σ}

theorem refl (scene : Scene σ) : Scene.Unheard scene.moments scene scene :=
  ⟨rfl, rfl, [], (List.append_nil _).symm, (List.append_nil _).symm⟩

/-- The record goes on with the same questions. -/
theorem recorded (unheard : Scene.Unheard start heard silent) (outside : Outside σ)
    (more : List Moment)
    : Scene.Unheard start { heard with outside := outside, moments := heard.moments ++ more }
        { silent with
          outside := outside
          moments := silent.moments ++ (Moment.questions more).map .asked } where
  tree := unheard.tree
  outside := rfl
  moments := by
    obtain ⟨moments, first, second⟩ := unheard.moments
    refine ⟨moments ++ more, ?_, ?_⟩
    · rw [first, List.append_assoc]
    · rw [second, Moment.questions, Moment.questions, Moment.questions, List.filterMap_append,
        List.map_append, List.append_assoc]

end Scene.Unheard

namespace Phase

variable {σ α : Type} {start : List Moment}

theorem examine_unheard (look : Tree → Except Failure α)
    : Alike (Scene.Unheard start (σ := σ)) (examine look) (examine look) :=
  fun s t related => ⟨look s.tree, s, t, rfl, by rw [related.tree]; rfl, related⟩

theorem report_unheard (who : Listener) (event : Event)
    : Alike (Scene.Unheard start (σ := σ)) (report (some who) event) (report none event) := by
  intro s t related
  obtain ⟨moments, first, second⟩ := related.moments
  refine ⟨.ok (), { s with moments := s.moments ++ [.reported who event] }, t, rfl, rfl,
    related.tree, related.outside, moments ++ [.reported who event], ?_, ?_⟩
  · rw [first, List.append_assoc]
  · rw [second, Moment.questions, Moment.questions, List.filterMap_append]
    simp

theorem consult_unheard (question : Question) (call : Call σ α)
    : Alike (Scene.Unheard start) (consult question call) (consult question call) := by
  intro s t related
  refine ⟨(call.outcome s.outside).1, _, _, rfl, ?_,
    related.recorded (call.outcome s.outside).2 [.asked question]⟩
  rw [related.outside]
  rfl

/-- The questions of a check are the same, by cases on its answer. -/
theorem questions_momentsOf (who : Listener) (content : String) (check : Check)
    : (Moment.questions (momentsOf (some who) content check)).map .asked
      = momentsOf none content check := by
  unfold momentsOf
  cases check.answer <;> rfl

/-- The questions of checks are the same, by induction on the checks. -/
theorem questions_checks (who : Listener) (content : String) (checks : List Check)
    : (Moment.questions (checks.flatMap (momentsOf (some who) content))).map .asked
      = checks.flatMap (momentsOf none content) := by
  induction checks with
  | nil => rfl
  | cons check checks ih =>
      rw [List.flatMap_cons, List.flatMap_cons, ← ih, ← questions_momentsOf who, Moment.questions,
        Moment.questions, Moment.questions, List.filterMap_append, List.map_append]

theorem wait_unheard (clock : Clock) (schedule : Schedule) (who : Listener) (content : String)
    (status : Call σ Status)
    : Alike (Scene.Unheard start) (wait clock schedule (some who) content status)
        (wait clock schedule none content status) := by
  intro s t related
  let waited := Wait.run clock schedule content status.outcome none s.outside
  have later :=
    related.recorded waited.state (waited.checks.flatMap (momentsOf (some who) content))
  rw [questions_checks] at later
  refine ⟨_, _, _, rfl, ?_, later⟩
  simp only [wait, ExceptT.run_mk, StateT.run, ← related.outside]
  rfl

/-- The tree is freed of the same things afterwards. -/
theorem releasing_unheard (document : Document) {heard silent : Phase σ α}
    (alike : Alike (Scene.Unheard start) heard silent)
    : Alike (Scene.Unheard start) (Run.releasing document heard)
        (Run.releasing document silent) := by
  intro s t related
  obtain ⟨result, s', t', left, right, later⟩ := alike s t related
  refine ⟨result, { s' with tree := document.release s'.tree },
    { t' with tree := document.release t'.tree }, ?_, ?_,
    { later with tree := by rw [later.tree] }⟩
  · change ((heard.run.run s).1, { (heard.run.run s).2 with
      tree := document.release (heard.run.run s).2.tree }) = _
    rw [left]
  · change ((silent.run.run t).1, { (silent.run.run t).2 with
      tree := document.release (silent.run.run t).2.tree }) = _
    rw [right]

end Phase

namespace Run

variable {σ : Type} {start : List Moment} (plan : Plan σ) (who : Listener)

theorem resolve_unheard (input : String)
    : Alike (Scene.Unheard start) (resolve (plan.watching (some who)) input)
        (resolve (plan.watching none) input) := by
  intro s t related
  let resolved := Document.resolve plan.peer plan.settings.downloadSeconds.toNat
    plan.settings.workDir input s.tree s.outside.traffic
  let outside : Outside σ := { s.outside with traffic := resolved.2.2 }
  refine ⟨resolved.1, { s with tree := resolved.2.1, outside := outside },
    { t with tree := resolved.2.1, outside := outside }, rfl, ?_, rfl, rfl, related.moments⟩
  simp only [resolve, ExceptT.run_mk, StateT.run, ← related.tree, ← related.outside]
  rfl

/-- Registering and sending ask the same; by cases on whether the graph is registered. -/
theorem submit_unheard (document : Document)
    : Alike (Scene.Unheard start) (submit (plan.watching (some who)) document)
        (submit (plan.watching none) document) := by
  have sends : Alike (Scene.Unheard start)
      (do
        let tree ← Phase.examine .ok
        let content ← Phase.consult (.upload plan.graph.name document.path)
          (plan.service.upload plan.graph.name document.path tree)
        Phase.report (some who) (.submitted content)
        return content)
      (do
        let tree ← Phase.examine .ok
        let content ← Phase.consult (.upload plan.graph.name document.path)
          (plan.service.upload plan.graph.name document.path tree)
        Phase.report none (.submitted content)
        return content) := by
    refine (Phase.examine_unheard _).bind fun tree => ?_
    refine (Phase.consult_unheard _ _).bind fun content => ?_
    exact (Phase.report_unheard _ _).bind fun _ => Alike.pure content
  unfold submit
  dsimp only [Plan.watching]
  by_cases wanted : plan.settings.createGraph = true
  · simp only [wanted, if_true]
    exact (Phase.consult_unheard _ _).bind fun _ => sends
  · simp only [wanted]
    exact sends

theorem text_unheard (policy content : String)
    : Alike (Scene.Unheard start) (text (plan.watching (some who)) policy content)
        (text (plan.watching none) policy content) :=
  (Phase.consult_unheard _ _).bind fun _ => Alike.purely _

theorem process_unheard (policy : Policy) (document : Document)
    : Alike (Scene.Unheard start) (process (plan.watching (some who)) policy document)
        (process (plan.watching none) policy document) := by
  refine (Phase.examine_unheard _).bind fun size => ?_
  refine (Phase.report_unheard _ _).bind fun _ => ?_
  refine (submit_unheard plan who document).bind fun content => ?_
  refine (Phase.wait_unheard _ _ _ _ _).bind fun checks => ?_
  refine (text_unheard plan who policy.name content).bind fun text => ?_
  exact (Phase.report_unheard _ _).bind fun _ => Alike.pure _

/-- A run does the same with a listener and without one, phase by phase. -/
theorem deliver_unheard (input : String)
    : Alike (Scene.Unheard start) (deliver (plan.watching (some who)) input)
        (deliver (plan.watching none) input) := by
  refine Alike.bind (Alike.purely _) fun policy => ?_
  refine (resolve_unheard plan who input).bind fun document => ?_
  exact Phase.releasing_unheard document (process_unheard plan who policy document)

end Run
end DocPipeline
