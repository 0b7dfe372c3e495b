import DocPipeline.Proofs.Run.Protocol
import DocPipeline.Proofs.Run.Unwatched
import Mathlib.Data.List.Infix

/-! The reports of a run. Someone who listens hears of the document before anything is asked, of the
upload and of every check right after a good answer, and of the end if there is a text. So the
exchanges with the service and the result tell when which report was made.
-/

namespace DocPipeline

-----------------------------------------------------------------------------------------
-- Reports as echoes of exchanges
-----------------------------------------------------------------------------------------

namespace Exchange

/-- What is reported of an exchange when so many checks have been made: the content that an upload
returned, and the status that a check returned, with the number of the check.
-/
def reports (checks : Nat) : Exchange → List Event
  | .upload _ _ (.ok content) => [.submitted content]
  | .status _ (.ok state) => [.checked (checks + 1) state]
  | _ => []

/-- How many checks have been made after an exchange, if there were so many before it. -/
def checksAfter (checks : Nat) : Exchange → Nat
  | .status .. => checks + 1
  | _ => checks

/-- The status that a check returned. -/
def status? : Exchange → Option Status
  | .status _ (.ok state) => some state
  | _ => none

end Exchange

namespace Turn

/-- Exchanges, each with its reports to a listener right behind it, after so many checks. -/
def echoed (who : Listener) : Nat → List Exchange → List Turn
  | _, [] => []
  | checks, exchange :: rest =>
    .exchanged exchange :: (exchange.reports checks).map (.reported who)
      ++ echoed who (exchange.checksAfter checks) rest

/-- The report of a text. -/
def closing (who : Listener) : Except Failure Delivery → List Turn
  | .ok delivery => [.reported who (.complete delivery.tally.characters)]
  | .error _ => []

/-- The turns of a run that someone listens to: the report of a document of that size, the exchanges
with their reports, and the report of the text if there is one.
-/
def mirroring (who : Listener) (size : Nat) (exchanges : List Exchange)
    (result : Except Failure Delivery) : List Turn :=
  .reported who (.inputReady size) :: echoed who 0 exchanges ++ closing who result

/-- The statuses that were returned. -/
def statuses (turns : List Turn) : List Status :=
  (turns.filterMap exchange?).filterMap Exchange.status?

theorem statuses_append (first second : List Turn)
    : statuses (first ++ second) = statuses first ++ statuses second := by
  rw [statuses, List.filterMap_append, List.filterMap_append, ← statuses, ← statuses]

theorem statuses_reported (who : Listener) (event : Event)
    : statuses [.reported who event] = [] :=
  rfl

/-- Checks are echoed by their statuses; by induction on the answers. -/
theorem echoed_map_status (who : Listener) (content : String) (checks : Nat)
    (answers : List (Except Failure Status)) (rest : List Exchange)
    : echoed who checks (answers.map (.status content) ++ rest)
      = ofAnswers (some who) content (checks + 1) answers
        ++ echoed who (checks + answers.length) rest := by
  induction answers generalizing checks with
  | nil => rfl
  | cons answer answers ih =>
      have same : checks + (answer :: answers).length = checks + 1 + answers.length := by
        rw [List.length_cons]
        omega
      rw [List.map_cons, List.cons_append, echoed, Exchange.checksAfter, ih (checks + 1), same,
        ofAnswers, List.append_assoc]
      congr 1
      cases answer <;> rfl

end Turn

namespace Event

/-- The reports of checks with these statuses, numbered from one. -/
def checks (statuses : List Status) : List Event :=
  statuses.mapIdx fun before status => .checked (before + 1) status

/-- All reports of a run that comes to its end. -/
def untilEnd (size : Nat) (content : String) (statuses : List Status) (characters : Nat)
    : List Event :=
  [.inputReady size, .submitted content] ++ checks statuses ++ [.complete characters]

end Event

namespace Moment

@[simp]
theorem events_append (first second : List Moment)
    : events (first ++ second) = events first ++ events second :=
  List.filterMap_append

@[simp]
theorem events_nil : events [] = [] :=
  rfl

@[simp]
theorem events_asked (question : Question) (moments : List Moment)
    : events (.asked question :: moments) = events moments :=
  rfl

@[simp]
theorem events_reported (who : Listener) (event : Event) (moments : List Moment)
    : events (.reported who event :: moments) = event :: events moments :=
  rfl

end Moment

/-- Exchanges are not reports; by induction on their list. -/
@[simp]
theorem Turn.events_exchanged (exchanges : List Exchange)
    : Moment.events (exchanges.map (Turn.moment ∘ Turn.exchanged)) = [] := by
  induction exchanges with
  | nil => rfl
  | cons exchange rest ih => exact ih

/-- The answers of checks that return these statuses, and then a failure if there is one. -/
def Wait.answersOf (statuses : List Status) (failed : Option Failure)
    : List (Except Failure Status) :=
  statuses.map .ok ++ failed.toList.map .error

/-- The reports of checks: one for each that returned a status; by induction on the statuses. -/
theorem Turn.events_ofAnswers (who : Listener) (content : String) (number : Nat)
    (statuses : List Status) (failed : Option Failure)
    : Moment.events ((ofAnswers (some who) content number
          (Wait.answersOf statuses failed)).map Turn.moment)
      = statuses.mapIdx fun before status => .checked (before + number) status := by
  induction statuses generalizing number with
  | nil => cases failed <;> rfl
  | cons status statuses ih =>
      rw [Wait.answersOf, List.map_cons, List.cons_append, ← Wait.answersOf, ofAnswers,
        List.map_append, Moment.events_append, ih (number + 1), List.mapIdx_cons]
      simp only [ofCheck, report, Nat.zero_add, Nat.add_right_comm _ 1 number,
        ← Nat.add_assoc]
      rfl

-----------------------------------------------------------------------------------------
-- The statuses of a wait
-----------------------------------------------------------------------------------------

namespace Wait

/-- A wait gets statuses, all but the last of them pending, and then a failure at most. It succeeds
only if it gets statuses alone, and counts these; by cases on its ending.
-/
theorem Ending.statuses {clock : Clock} {schedule : Schedule} {content : String}
    {answers : List (Except Failure Status)} {result : Except Failure Nat}
    (ending : Ending clock schedule content answers result)
    : ∃ (statuses : List Status) (failed : Option Failure),
        answers = answersOf statuses failed
        ∧ (∀ status ∈ statuses.dropLast, status = .pending)
        ∧ ∀ checks, result = .ok checks → failed = none ∧ statuses.length = checks := by
  have before (count : Nat) (last : Status)
      : ∀ status ∈ (List.replicate count Status.pending ++ [last]).dropLast,
          status = .pending := by
    intro status member
    rw [List.dropLast_concat] at member
    exact List.eq_of_mem_replicate member
  have throughout (count : Nat)
      : ∀ status ∈ (List.replicate count Status.pending).dropLast, status = .pending :=
    fun status member => List.eq_of_mem_replicate (List.mem_of_mem_dropLast member)
  cases ending with
  | completed pending =>
      refine ⟨List.replicate pending .pending ++ [.completed], none, by simp [answersOf],
        before pending _, ?_⟩
      rintro checks ⟨⟩
      simp
  | unanswered pending failure =>
      exact ⟨List.replicate pending .pending, some failure, by simp [answersOf],
        throughout pending, nofun⟩
  | failed pending reason =>
      exact ⟨List.replicate pending .pending ++ [.failed reason], none, by simp [answersOf],
        before pending _, nofun⟩
  | late pending expired =>
      exact ⟨List.replicate pending .pending ++ [.pending], none, by simp [answersOf],
        before pending _, nofun⟩
  | uncountable =>
      exact ⟨List.replicate countableChecks .pending, none, by simp [answersOf],
        throughout countableChecks, nofun⟩
  | beyondClock beyond => exact ⟨[], none, rfl, nofun, nofun⟩

end Wait

-----------------------------------------------------------------------------------------
-- The reports of a course
-----------------------------------------------------------------------------------------

/-- What the events of a run tell to whoever listens. They are the first ones of a run that comes to
its end, and tell of an end exactly if there is one; then they tell what is delivered.
-/
structure Event.Tell (size : Nat) (content : String) (statuses : List Status)
    (result : Except Failure Delivery) (events : List Event) : Prop where
  front : ∃ characters, events <+: untilEnd size content statuses characters
  pending : ∀ status ∈ statuses.dropLast, status = .pending
  complete : ∀ characters, .complete characters ∈ events → ∃ delivery, result = .ok delivery
  whole : ∀ delivery, result = .ok delivery
    → events = untilEnd size delivery.content statuses delivery.tally.characters
      ∧ delivery.tally.checks = statuses.length ∧ delivery.tally.uploadedBytes = size

namespace Event

variable {size : Nat} {content : String} {statuses : List Status}

/-- A run that is not reported further than its document fails before the upload. -/
theorem tell_unsubmitted (size : Nat) (content : String) (failure : Failure)
    : Tell size content [] (.error failure) [.inputReady size] where
  front := ⟨0, by simp [untilEnd]⟩
  pending := nofun
  complete := by simp
  whole := nofun

/-- A run that is reported as far as its checks fails in its wait or behind it. -/
theorem tell_unfinished (pending : ∀ status ∈ statuses.dropLast, status = .pending)
    (failure : Failure)
    : Tell size content statuses (.error failure)
        ([.inputReady size, .submitted content] ++ checks statuses) where
  front := ⟨0, List.prefix_append _ _⟩
  pending := pending
  complete := by simp [checks, List.mem_mapIdx]
  whole := nofun

/-- A run that is reported to its end delivers what it tells. -/
theorem tell_delivered (pending : ∀ status ∈ statuses.dropLast, status = .pending)
    (delivery : Delivery) (named : delivery.content = content)
    (counted : delivery.tally.checks = statuses.length)
    (measured : delivery.tally.uploadedBytes = size)
    : Tell size content statuses (.ok delivery)
        (untilEnd size content statuses delivery.tally.characters) where
  front := ⟨delivery.tally.characters, List.prefix_rfl⟩
  pending := pending
  complete := fun _ _ => ⟨delivery, rfl⟩
  whole := by
    rintro other ⟨⟩
    exact ⟨by rw [named], counted, measured⟩

end Event

namespace Run

section Courses

variable {σ : Type} {plan : Plan σ} {policy : Policy} {document : Document} {size : Nat}
  {who : Listener}

theorem report_of_heard (heard : plan.settings.listener = some who) (event : Event)
    : Turn.report plan.settings.listener event = [.reported who event] := by
  rw [heard]
  rfl

/-- The exchanges of a course that ends with its submission. -/
theorem filterMap_exchange?_unsubmitted (plan : Plan σ) (size : Nat) (sent : List Exchange)
    : (Turn.report plan.settings.listener (.inputReady size)
        ++ sent.map Turn.exchanged).filterMap Turn.exchange? = sent := by
  simp [Turn.exchange?, List.filterMap_map, Function.comp_def]

/-- A registration is not reported; by cases on whether it is wanted. -/
theorem echoed_registration (plan : Plan σ) (who : Listener) (checks : Nat)
    (answer : Except Failure Unit) (rest : List Exchange)
    : Turn.echoed who checks (registration plan answer ++ rest)
      = (registration plan answer).map .exchanged ++ Turn.echoed who checks rest := by
  unfold registration
  split <;> rfl

theorem statuses_registration (answer : Except Failure Unit)
    : (registration plan answer).filterMap Exchange.status? = [] := by
  unfold registration
  split <;> rfl

/-- A submission that fails is not reported, by cases on its ways. -/
theorem Submission.echoed_of_error {sent : List Exchange} {failure : Failure}
    (submission : Submission plan document sent (.error failure))
    : Turn.echoed who 0 sent = sent.map .exchanged := by
  cases submission with
  | unregistered failure wanted =>
      have alone := echoed_registration plan who 0 (.error failure) []
      simpa [Turn.echoed] using alone
  | answered answer =>
      rw [echoed_registration]
      simp [Turn.echoed, Exchange.reports]

/-- The exchanges of a course are echoed by its reports, phase by phase. -/
theorem echoed_course (size : Nat) (heard : plan.settings.listener = some who)
    {sent : List Exchange} {content : String}
    (submission : Submission plan document sent (.ok content))
    (answers : List (Except Failure Status)) (rest : List Exchange)
    : .reported who (.inputReady size)
          :: Turn.echoed who 0 (sent ++ answers.map (.status content) ++ rest)
      = opening plan size sent content
        ++ Turn.ofAnswers plan.settings.listener content 1 answers
        ++ Turn.echoed who answers.length rest := by
  rw [submission.exchanges_of_ok]
  simp only [List.append_assoc, echoed_registration, opening, Turn.report, heard]
  simp [Turn.echoed, Exchange.reports, Exchange.checksAfter, Turn.echoed_map_status]

/-- The exchange of a retrieval is not reported, by cases on its ways. -/
theorem Retrieval.echoed {content : String} {fetch : Exchange} {result : Except Failure String}
    (retrieval : Retrieval plan policy content fetch result) (checks : Nat)
    : Turn.echoed who checks [fetch] = [.exchanged fetch] := by
  cases retrieval <;> rfl

theorem Retrieval.statuses {content : String} {fetch : Exchange} {result : Except Failure String}
    (retrieval : Retrieval plan policy content fetch result)
    : Turn.statuses [.exchanged fetch] = [] := by
  cases retrieval <;> rfl

/-- The exchanges of a course up to its wait: those of its submission, and its checks. -/
theorem exchanges_upToWait (plan : Plan σ) (size : Nat) (sent : List Exchange) (content : String)
    (answers : List (Except Failure Status))
    : (opening plan size sent content
        ++ Turn.ofAnswers plan.settings.listener content 1 answers).filterMap Turn.exchange?
      = sent ++ answers.map (.status content) := by
  rw [List.filterMap_append, filterMap_exchange?_opening, Turn.filterMap_exchange?_ofAnswers]

/-- The turns of a course that someone listens to are told by its exchanges and its result, by cases
on the phase that ends it.
-/
theorem Course.eq_mirroring (heard : plan.settings.listener = some who) {turns : List Turn}
    {result : Except Failure Delivery} (course : Course plan policy document size turns result)
    : turns = Turn.mirroring who size (turns.filterMap Turn.exchange?) result := by
  cases course with
  | @unsubmitted sent failure submission =>
      rw [filterMap_exchange?_unsubmitted, Turn.mirroring, submission.echoed_of_error,
        report_of_heard heard]
      simp [Turn.closing]
  | @unfinished sent content answers failure submission ending =>
      have echoed := echoed_course size heard submission answers []
      rw [List.append_nil, Turn.echoed, List.append_nil] at echoed
      rw [exchanges_upToWait, Turn.mirroring, echoed, Turn.closing, List.append_nil]
  | @unread sent content answers checks fetch failure submission ending retrieval =>
      have echoed := echoed_course size heard submission answers [fetch]
      rw [retrieval.echoed] at echoed
      rw [List.filterMap_append, exchanges_upToWait, Turn.mirroring, Turn.closing, List.append_nil]
      exact echoed.symm
  | @delivered sent content answers checks fetch text submission ending retrieval =>
      have echoed := echoed_course size heard submission answers [fetch]
      rw [retrieval.echoed] at echoed
      rw [List.filterMap_append, List.filterMap_append, exchanges_upToWait,
        Turn.filterMap_exchange?_report, List.append_nil, report_of_heard heard,
        Turn.mirroring, Turn.closing, ← echoed]
      rfl

/-- The reports of a course up to its wait: the document, the content, and the statuses. -/
theorem events_upToWait (heard : plan.settings.listener = some who) {sent : List Exchange}
    {content : String} (statuses : List Status) (failed : Option Failure)
    : Moment.events ((opening plan size sent content
          ++ Turn.ofAnswers plan.settings.listener content 1
            (Wait.answersOf statuses failed)).map Turn.moment)
      = [.inputReady size, .submitted content] ++ Event.checks statuses := by
  rw [List.map_append, Moment.events_append, heard, Turn.events_ofAnswers]
  simp [opening, Turn.report, heard, Turn.moment, Event.checks]

/-- The statuses that are returned up to the wait of a course are those of the wait; by induction on
these.
-/
theorem statuses_upToWait {sent : List Exchange} {content : String}
    (submission : Submission plan document sent (.ok content)) (statuses : List Status)
    (failed : Option Failure)
    : Turn.statuses (opening plan size sent content
        ++ Turn.ofAnswers plan.settings.listener content 1 (Wait.answersOf statuses failed))
      = statuses := by
  have returned : ((Wait.answersOf statuses failed).map (Exchange.status content)).filterMap
      Exchange.status? = statuses := by
    induction statuses with
    | nil => cases failed <;> rfl
    | cons status statuses ih => exact congrArg (status :: ·) ih
  rw [Turn.statuses, exchanges_upToWait, submission.exchanges_of_ok, List.filterMap_append,
    List.filterMap_append, returned, statuses_registration]
  rfl

theorem Submission.statuses_of_error {sent : List Exchange} {failure : Failure}
    (submission : Submission plan document sent (.error failure))
    : sent.filterMap Exchange.status? = [] := by
  cases submission with
  | unregistered failure wanted => exact statuses_registration (.error failure)
  | answered answer =>
      rw [List.filterMap_append, statuses_registration]
      rfl

/-- What a course that someone listens to tells, by cases on the phase that ends it. -/
theorem Course.tell (heard : plan.settings.listener = some who) {turns : List Turn}
    {result : Except Failure Delivery} (course : Course plan policy document size turns result)
    {content : String}
    (named : ∀ returned,
      .upload plan.graph.name document.path (.ok returned) ∈ turns.filterMap Turn.exchange?
      → returned = content)
    : Event.Tell size content (Turn.statuses turns) result
        (Moment.events (turns.map Turn.moment)) := by
  cases course with
  | @unsubmitted sent failure submission =>
      rw [Turn.statuses, filterMap_exchange?_unsubmitted, submission.statuses_of_error,
        report_of_heard heard]
      simpa [Turn.moment] using Event.tell_unsubmitted size content failure
  | @unfinished sent returned answers failure submission ending =>
      obtain ⟨statuses, failed, rfl, pending, _⟩ := ending.statuses
      obtain rfl := named returned (by simp [submission.exchanges_of_ok])
      rw [events_upToWait heard, statuses_upToWait submission]
      exact Event.tell_unfinished pending failure
  | @unread sent returned answers checks fetch failure submission ending retrieval =>
      obtain ⟨statuses, failed, rfl, pending, _⟩ := ending.statuses
      obtain rfl := named returned (by simp [submission.exchanges_of_ok])
      rw [List.map_append, Moment.events_append, events_upToWait heard, Turn.statuses_append,
        statuses_upToWait submission, retrieval.statuses, List.append_nil]
      simpa [Turn.moment] using Event.tell_unfinished pending failure
  | @delivered sent returned answers checks fetch text submission ending retrieval =>
      obtain ⟨statuses, failed, rfl, pending, counted⟩ := ending.statuses
      obtain rfl := named returned (by simp [submission.exchanges_of_ok])
      have tells := Event.tell_delivered pending ⟨text, returned, plan.graph.name, policy.name,
        Tally.untimed document.downloadedBytes size checks text.length⟩
        rfl (counted checks rfl).2.symm rfl
      rw [report_of_heard heard, List.map_append, List.map_append, Moment.events_append,
        Moment.events_append, events_upToWait heard, Turn.statuses_append,
        Turn.statuses_append, statuses_upToWait submission, retrieval.statuses,
        Turn.statuses_reported, List.append_nil, List.append_nil]
      simpa [Turn.moment, Event.untilEnd, Tally.untimed] using tells

end Courses

-----------------------------------------------------------------------------------------
-- Whole runs
-----------------------------------------------------------------------------------------

/-- The document of a run is there: the graph keeps all rules, and the input names a document of
that size.
-/
structure IsReady {σ : Type} (plan : Plan σ) (input : String) (scene : Scene σ)
    (document : Document) (size : Nat) : Prop where
  valid : plan.graph.validate = .ok ()
  resolved : ((resolve plan input).outcome scene).1 = .ok document
  measured : document.size ((resolve plan input).outcome scene).2.tree = .ok size

/-- A run without a document fails before anything is asked or reported; by cases on the graph and
on what the input names.
-/
theorem deliver_of_not_ready {σ : Type} {plan : Plan σ} {input : String} {scene : Scene σ}
    (never : ¬ ∃ document size, IsReady plan input scene document size)
    : ∃ failure,
        ((deliver plan input).outcome scene).1 = .error failure
        ∧ ((deliver plan input).outcome scene).2.outside.service = scene.outside.service
        ∧ ((deliver plan input).outcome scene).2.moments = scene.moments := by
  cases valid : plan.graph.validate with
  | error violation =>
      have ends : (deliver plan input).outcome scene = (.error violation.failure, scene) :=
        Phase.outcome_bind_error (by rw [Phase.outcome_purely, outputPolicy_of_violation valid])
      exact ⟨violation.failure, by rw [ends], by rw [ends], by rw [ends]⟩
  | ok _ =>
      obtain ⟨policy, _, found⟩ := outputPolicy_of_valid valid
      cases resolved : ((resolve plan input).outcome scene).1 with
      | error failure =>
          have ends := deliver_outcome_of_unresolved found resolved
          exact ⟨failure, by rw [ends], by rw [ends]; rfl, by rw [ends]; rfl⟩
      | ok document =>
          obtain ⟨result, outside, moments⟩ := deliver_outcome_of_resolved found resolved
          cases measured : document.size ((resolve plan input).outcome scene).2.tree with
          | error failure =>
              have ends := @process_outcome_of_unmeasured σ plan policy document _ failure measured
              rw [result, outside, moments, ends]
              exact ⟨failure, rfl, rfl, rfl⟩
          | ok size => exact absurd ⟨document, size, valid, resolved, measured⟩ never

/-- A run with a document is a course; by joining what finds the document and what is done with
it.
-/
theorem IsReady.course {σ : Type} {plan : Plan σ} {input : String} {scene : Scene σ}
    {document : Document} {size : Nat} (ready : IsReady plan input scene document size)
    : ∃ policy turns,
        Course plan policy document size turns ((deliver plan input).outcome scene).1
        ∧ Turn.Happen plan.service ((resolve plan input).outcome scene).2.tree
            ((resolve plan input).outcome scene).2.outside turns
            ((deliver plan input).outcome scene).2.outside
        ∧ ((deliver plan input).outcome scene).2.moments
          = scene.moments ++ turns.map Turn.moment := by
  obtain ⟨policy, _, found⟩ := outputPolicy_of_valid ready.valid
  obtain ⟨turns, ended, last, course, transcribed⟩ :=
    process_transcribed plan policy document size _ ready.measured
  obtain ⟨result, outside, moments⟩ := deliver_outcome_of_resolved found ready.resolved
  rw [result, outside, moments, transcribed.outcome]
  exact ⟨policy, turns, course, transcribed.happen, transcribed.recorded⟩

/-- The reports of a run mirror it. A run that finds no document reports nothing and asks nothing.
Any other run reports the document before it asks, every upload and every check that is answered
well right after that, numbered from one, and the text last, if there is one: its exchanges in the
order of the protocol and its result tell all its turns. Without a listener a run returns the same,
leaves the same outside and the same tree, and asks the same.
-/
theorem deliver_mirrors_progress {σ : Type} (plan : Plan σ) (who : Listener) (input : String)
    (scene : Scene σ)
    : let heard := (deliver (plan.watching (some who)) input).outcome scene
      let silent := (deliver (plan.watching none) input).outcome scene
      let resolution := (resolve plan input).outcome scene
      ((¬ ∃ document size, IsReady plan input scene document size)
        → ∃ failure,
            heard.1 = .error failure
            ∧ heard.2.outside.service = scene.outside.service
            ∧ heard.2.moments = scene.moments)
      ∧ (∀ document size, IsReady plan input scene document size
          → ∃ turns policy content checks,
              turns = Turn.mirroring who size (turns.filterMap Turn.exchange?) heard.1
              ∧ Turn.Happen plan.service resolution.2.tree resolution.2.outside turns
                  heard.2.outside
              ∧ heard.2.moments = scene.moments ++ turns.map Turn.moment
              ∧ (turns.filterMap Turn.exchange?).map Exchange.question
                <+: protocol plan policy document content checks
              ∧ Event.Tell size content (Turn.statuses turns) heard.1
                  (Moment.events (turns.map Turn.moment)))
      ∧ silent.1 = heard.1
      ∧ silent.2.outside = heard.2.outside
      ∧ silent.2.tree = heard.2.tree
      ∧ ∃ moments,
          heard.2.moments = scene.moments ++ moments
          ∧ silent.2.moments = scene.moments ++ (Moment.questions moments).map .asked := by
  intro heard silent resolution
  refine ⟨?_, ?_, ?_⟩
  · intro never
    have unready
        : ¬ ∃ document size, IsReady (plan.watching (some who)) input scene document size := by
      rintro ⟨document, size, valid, resolved, measured⟩
      exact never ⟨document, size, valid, resolved, measured⟩
    exact deliver_of_not_ready unready
  · intro document size ready
    have begun : IsReady (plan.watching (some who)) input scene document size :=
      ⟨ready.valid, ready.resolved, ready.measured⟩
    obtain ⟨policy, turns, course, happen, recorded⟩ := begun.course
    obtain ⟨content, checks, _, questions, named⟩ := course.dialogue.questions_prefix
    exact ⟨turns, policy, content, checks, course.eq_mirroring rfl, happen, recorded, questions,
      course.tell rfl named⟩
  · obtain ⟨result, first, second, heardEnds, silentEnds, unheard⟩ :=
      deliver_unheard plan who input scene scene (.refl scene)
    have one : heard = (result, first) := heardEnds
    have two : silent = (result, second) := silentEnds
    rw [one, two]
    exact ⟨rfl, unheard.outside.symm, unheard.tree.symm, unheard.moments⟩

/-- Who listens to a run of two policies hears of three bytes, of the content, of a pending and of a
completed status, and of two characters, which is all that such a run can tell.
-/
theorem deliver_mirrors_progress_of_two_steps
    : let heard := (deliver (twoStepPlan.watching (some ⟨0⟩)) "doc.pdf").outcome oneDocument
      let silent := (deliver (twoStepPlan.watching none) "doc.pdf").outcome oneDocument
      let events : List Event :=
        [.inputReady 3, .submitted "c", .checked 1 .pending, .checked 2 .completed, .complete 2]
      IsReady twoStepPlan "doc.pdf" oneDocument (.present "doc.pdf") 3
      ∧ Moment.events heard.2.moments = events
      ∧ silent.2.moments
        = [.asked (.create twoStepPlan.graph), .asked (.upload "g" "doc.pdf"),
            .asked (.status "c"), .asked (.status "c"), .asked (.fetch "c" "g" "second")]
      ∧ ∃ content statuses, Event.Tell 3 content statuses heard.1 events := by
  intro heard silent events
  have ready : IsReady twoStepPlan "doc.pdf" oneDocument (.present "doc.pdf") 3 :=
    ⟨by decide, by decide, by decide⟩
  have told : Moment.events heard.2.moments = events := by decide +kernel
  obtain ⟨_, runs, _⟩ := deliver_mirrors_progress twoStepPlan ⟨0⟩ "doc.pdf" oneDocument
  obtain ⟨turns, _, content, _, _, _, recorded, _, tells⟩ := runs (.present "doc.pdf") 3 ready
  have same : heard.2.moments = turns.map Turn.moment := recorded
  rw [← same, told] at tells
  exact ⟨ready, told, by decide +kernel, content, Turn.statuses turns, tells⟩

end Run
end DocPipeline
