import DocPipeline.Proofs.Job.WaitCourse
import DocPipeline.Run.Basic

/-! Transcripts of phases. A transcript lists the questions that a phase asks of the service, each
with the answer that the service gave in the state it was in, and the events reported in between.
What a phase puts on record is its transcript without the answers.
-/

namespace DocPipeline

/-- A question with its answer. -/
inductive Exchange where
  | create (graph : Graph) (answer : Except Failure Unit)
  | upload (graph path : String) (answer : Except Failure String)
  | status (content : String) (answer : Except Failure Status)
  | fetch (content graph policy : String) (answer : Except Failure (List Artifact))

/-- The question of an exchange. -/
def Exchange.question : Exchange → Question
  | create graph _ => .create graph
  | upload graph path _ => .upload graph path
  | status content _ => .status content
  | fetch content graph policy _ => .fetch content graph policy

/-- An exchange with the service, or a report. -/
inductive Turn where
  | exchanged (exchange : Exchange)
  | reported (listener : Listener) (event : Event)

namespace Turn

/-- What is put on record of a turn. -/
def moment : Turn → Moment
  | exchanged exchange => .asked exchange.question
  | reported listener event => .reported listener event

/-- The exchange of a turn. -/
def exchange? : Turn → Option Exchange
  | exchanged exchange => some exchange
  | reported .. => none

/-- The turn is what happens to the outside: the service gives that answer and leaves that state
behind. Reports leave the outside alone.
-/
def Happens {σ : Type} (service : Service σ) (tree : Tree) (before after : Outside σ)
    : Turn → Prop
  | exchanged (.create graph answer) => (service.create graph).outcome before = (answer, after)
  | exchanged (.upload graph path answer) =>
    (service.upload graph path tree).outcome before = (answer, after)
  | exchanged (.status content answer) =>
    (service.status content).outcome before = (answer, after)
  | exchanged (.fetch content graph policy answer) =>
    (service.fetch content graph policy).outcome before = (answer, after)
  | reported .. => before = after

/-- The turns happen to the outside one after the other. -/
inductive Happen {σ : Type} (service : Service σ) (tree : Tree)
    : Outside σ → List Turn → Outside σ → Prop
  | nil (outside) : Happen service tree outside [] outside
  | cons {before between after turn turns}
    (first : Happens service tree before between turn)
    (rest : Happen service tree between turns after)
    : Happen service tree before (turn :: turns) after

/-- Entries that happen one after the other can be joined, by induction on the first ones. -/
theorem Happen.append {σ : Type} {service : Service σ} {tree : Tree}
    {before between after : Outside σ} {first second : List Turn}
    (left : Happen service tree before first between)
    (right : Happen service tree between second after)
    : Happen service tree before (first ++ second) after := by
  induction left with
  | nil => exact right
  | cons head _ ih => exact .cons head (ih right)

/-- A single turn that happens is a transcript. -/
theorem Happens.single {σ : Type} {service : Service σ} {tree : Tree}
    {before after : Outside σ} {turn : Turn} (happens : Happens service tree before after turn)
    : Happen service tree before [turn] after :=
  .cons happens (.nil after)

/-- A report, if someone listens. -/
def report (listener : Option Listener) (event : Event) : List Turn :=
  listener.toList.map fun who => .reported who event

/-- A check of the state of a content. -/
def ofCheck (listener : Option Listener) (content : String) (check : Check) : List Turn :=
  .exchanged (.status content check.answer) ::
    match check.answer with
    | .ok status => report listener (.checked check.number status)
    | .error _ => []

/-- Checks in their order, numbered from the given one. -/
def ofAnswers (listener : Option Listener) (content : String)
    : Nat → List (Except Failure Status) → List Turn
  | _, [] => []
  | number, answer :: answers =>
    ofCheck listener content ⟨number, 0, answer⟩
      ++ ofAnswers listener content (number + 1) answers

/-- The moments of a check are those of its turns, by cases on its answer and the listener. -/
theorem map_moment_ofCheck (listener : Option Listener) (content : String) (check : Check)
    : (ofCheck listener content check).map moment = Phase.momentsOf listener content check := by
  unfold ofCheck Phase.momentsOf report
  cases check.answer with
  | error failure => rfl
  | ok status => cases listener <;> rfl

/-- Nothing is exchanged in a report, by cases on the listener. -/
@[simp]
theorem filterMap_exchange?_report (listener : Option Listener) (event : Event)
    : (report listener event).filterMap exchange? = [] := by
  cases listener <;> rfl

/-- The exchange of a check, by cases on its answer. -/
@[simp]
theorem filterMap_exchange?_ofCheck (listener : Option Listener) (content : String)
    (check : Check)
    : (ofCheck listener content check).filterMap exchange?
      = [.status content check.answer] := by
  unfold ofCheck
  cases check.answer with
  | error failure => rfl
  | ok status => simp [exchange?]

/-- The exchanges of checks, by induction on the answers. -/
@[simp]
theorem filterMap_exchange?_ofAnswers (listener : Option Listener) (content : String)
    (number : Nat) (answers : List (Except Failure Status))
    : (ofAnswers listener content number answers).filterMap exchange?
      = answers.map (.status content) := by
  induction answers generalizing number with
  | nil => rfl
  | cons answer answers ih => simp [ofAnswers, ih]

end Turn

-----------------------------------------------------------------------------------------
-- Outcomes of phases
-----------------------------------------------------------------------------------------

namespace Phase

variable {σ α β : Type}

/-- A phase that succeeds hands its value and its scene to the next one. -/
theorem outcome_bind_ok {phase : Phase σ α} {next : α → Phase σ β} {scene last : Scene σ}
    {value : α} (ends : phase.outcome scene = (.ok value, last))
    : (phase >>= next).outcome scene = (next value).outcome last := by
  change (ExceptT.bindCont next (phase.outcome scene).1 : StateM (Scene σ) (Except Failure β))
    (phase.outcome scene).2 = _
  rw [ends]
  rfl

/-- A phase that fails ends the phases after it. -/
theorem outcome_bind_error {phase : Phase σ α} {next : α → Phase σ β} {scene last : Scene σ}
    {failure : Failure} (ends : phase.outcome scene = (.error failure, last))
    : (phase >>= next).outcome scene = (.error failure, last) := by
  change (ExceptT.bindCont next (phase.outcome scene).1 : StateM (Scene σ) (Except Failure β))
    (phase.outcome scene).2 = _
  rw [ends]
  rfl

/-- What follows a phase comes about only after the phase did. -/
theorem exists_of_bind_eq_ok {phase : Phase σ α} {next : α → Phase σ β} {scene last : Scene σ}
    {value : β} (done : (phase >>= next).outcome scene = (.ok value, last))
    : ∃ first between, phase.outcome scene = (.ok first, between)
        ∧ (next first).outcome between = (.ok value, last) := by
  rcases ends : phase.outcome scene with ⟨result, between⟩
  cases result with
  | error failure =>
      rw [outcome_bind_error ends] at done
      cases done
  | ok first =>
      rw [outcome_bind_ok ends] at done
      exact ⟨first, between, rfl, done⟩

/-- A phase that only decides leaves the scene alone. -/
theorem outcome_purely (result : Except Failure α) (scene : Scene σ)
    : (purely result : Phase σ α).outcome scene = (result, scene) :=
  rfl

/-- A phase with this transcript: its result and the scene it leaves, where the turns happened to
the outside and were put on record, and the tree is the same.
-/
structure Transcribed (service : Service σ) (phase : Phase σ α) (scene : Scene σ)
    (turns : List Turn) (result : Except Failure α) (last : Scene σ) : Prop where
  outcome : phase.outcome scene = (result, last)
  happen : Turn.Happen service scene.tree scene.outside turns last.outside
  recorded : last.moments = scene.moments ++ turns.map Turn.moment
  tree : last.tree = scene.tree

namespace Transcribed

section Calls

variable (service : Service σ)

/-- A phase that only decides has an empty transcript. -/
theorem purely (result : Except Failure α) (scene : Scene σ)
    : Transcribed service (Phase.purely result) scene [] result scene :=
  ⟨rfl, .nil _, by simp, rfl⟩

/-- A phase that looks at the tree has an empty transcript. -/
theorem examine (look : Tree → Except Failure α) (scene : Scene σ)
    : Transcribed service (Phase.examine look) scene [] (look scene.tree) scene :=
  ⟨rfl, .nil _, by simp, rfl⟩

/-- A report is its own transcript, by cases on the listener. -/
theorem report (listener : Option Listener) (event : Event) (scene : Scene σ)
    : ∃ last, Transcribed service (Phase.report listener event) scene
        (Turn.report listener event) (.ok ()) last := by
  cases listener with
  | none => exact ⟨scene, rfl, .nil _, by simp [Turn.report], rfl⟩
  | some who =>
      exact ⟨{ scene with moments := scene.moments ++ [.reported who event] }, rfl,
        Turn.Happens.single rfl, rfl, rfl⟩

/-- A question to the service is an exchange with whatever it answers. -/
theorem consult (question : Question) (call : Call σ α) (exchange : Except Failure α → Exchange)
    (scene : Scene σ)
    (asks : ∀ answer, (exchange answer).question = question)
    (answers : ∀ answer after, call.outcome scene.outside = (answer, after)
      → Turn.Happens service scene.tree scene.outside after (.exchanged (exchange answer)))
    : ∃ answer last, Transcribed service (Phase.consult question call) scene
        [.exchanged (exchange answer)] answer last := by
  cases called : call.outcome scene.outside with
  | mk answer after =>
      refine ⟨answer, { scene with
        outside := after, moments := scene.moments ++ [.asked question] }, ?_, ?_, ?_, rfl⟩
      · change ((call.outcome scene.outside).1, { scene with
          outside := (call.outcome scene.outside).2
          moments := scene.moments ++ [Moment.asked question] }) = _
        rw [called]
      · exact (answers answer after called).single
      · simp [Turn.moment, asks]

end Calls

variable {service : Service σ} {scene between last : Scene σ}

/-- The transcript of two phases, the first of which succeeds. -/
theorem bind {phase : Phase σ α} {next : α → Phase σ β} {value : α}
    {first second turns : List Turn} {result : Except Failure β}
    (left : Transcribed service phase scene first (.ok value) between)
    (right : Transcribed service (next value) between second result last)
    (joined : turns = first ++ second)
    : Transcribed service (phase >>= next) scene turns result last where
  outcome := by rw [outcome_bind_ok left.outcome, right.outcome]
  happen := joined ▸ left.happen.append (left.tree ▸ right.happen)
  recorded := by
    rw [right.recorded, left.recorded, joined, List.map_append, List.append_assoc]
  tree := right.tree.trans left.tree

/-- The transcript of two phases, the first of which fails. -/
theorem bind_error {phase : Phase σ α} {next : α → Phase σ β} {failure : Failure}
    {turns : List Turn}
    (left : Transcribed service phase scene turns (.error failure) last)
    : Transcribed service (phase >>= next) scene turns (.error failure) last :=
  { left with outcome := outcome_bind_error left.outcome }

end Transcribed

end Phase

-----------------------------------------------------------------------------------------
-- The transcript of a wait
-----------------------------------------------------------------------------------------

section Wait

variable {σ : Type} (service : Service σ) (tree : Tree) (listener : Option Listener)
  (content : String) (start : Outside σ)

/-- A check happens when its answer does, by cases on the answer and the listener. -/
theorem Turn.happen_ofCheck {before after : Outside σ} (check : Check)
    (answered : (service.status content).outcome before = (check.answer, after))
    : Turn.Happen service tree before (Turn.ofCheck listener content check) after := by
  refine .cons answered ?_
  cases check.answer with
  | error failure => exact .nil after
  | ok status =>
      cases listener with
      | none => exact .nil after
      | some who => exact Turn.Happens.single rfl

/-- The answers of a stream happen one after the other, by induction on their number. -/
theorem Turn.happen_ofAnswers (asked count : Nat)
    : Turn.Happen service tree
        (Wait.stateAfter (service.status content).outcome start asked)
        (Turn.ofAnswers listener content (asked + 1)
          ((List.range' (asked + 1) count).map
            (Wait.answerTo (service.status content).outcome start)))
        (Wait.stateAfter (service.status content).outcome start (asked + count)) := by
  induction count generalizing asked with
  | zero => exact .nil _
  | succ count ih =>
      rw [List.range'_succ, List.map_cons, Turn.ofAnswers]
      have same : asked + (count + 1) = asked + 1 + count := by omega
      rw [same]
      refine (Turn.happen_ofCheck service tree listener content ⟨asked + 1, 0, _⟩ ?_).append
        (ih (asked + 1))
      rfl

/-- The checks of a timetable are put on record as the turns of their answers, by induction on their
number.
-/
theorem Turn.map_moment_ofAnswers (clock : Clock) (schedule : Schedule) (number count : Nat)
    : (Turn.ofAnswers listener content number
        ((List.range' number count).map
          (Wait.answerTo (service.status content).outcome start))).map Turn.moment
      = ((List.range' number count).map
          (Wait.checkOf clock schedule (service.status content).outcome start)).flatMap
          (Phase.momentsOf listener content) := by
  induction count generalizing number with
  | zero => rfl
  | succ count ih =>
      rw [List.range'_succ, List.map_cons, List.map_cons, Turn.ofAnswers, List.map_append,
        List.flatMap_cons, ih (number + 1), Turn.map_moment_ofCheck]
      rfl

/-- A wait has the transcript of its answers, and these lead to its result. -/
theorem Phase.Transcribed.wait (clock : Clock) (schedule : Schedule) (scene : Scene σ)
    : ∃ answers result last,
        Wait.Ending clock schedule content answers result
        ∧ Phase.Transcribed service
            (Phase.wait clock schedule listener content (service.status content)) scene
            (Turn.ofAnswers listener content 1 answers) result last := by
  obtain ⟨count, result, course, ending⟩ :=
    Wait.run_ending clock schedule content (service.status content).outcome scene.outside
  let asked := Wait.stateAfter (service.status content).outcome scene.outside count
  let moments := scene.moments ++ ((List.range' 1 count).map
    (Wait.checkOf clock schedule (service.status content).outcome scene.outside)).flatMap
    (Phase.momentsOf listener content)
  refine ⟨_, result, { scene with outside := asked, moments := moments }, ending, ?_, ?_, ?_, rfl⟩
  · unfold Phase.wait
    simp only [Phase.outcome, ExceptT.run_mk, StateT.run]
    rw [course]
    rfl
  · have happens := Turn.happen_ofAnswers service scene.tree listener content scene.outside 0
      count
    rwa [Nat.zero_add, Nat.zero_add] at happens
  · rw [Turn.map_moment_ofAnswers service listener content scene.outside clock schedule 1 count]

end Wait
end DocPipeline
