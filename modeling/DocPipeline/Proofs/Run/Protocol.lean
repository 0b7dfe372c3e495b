import DocPipeline.Proofs.Run.Transcript
import DocPipeline.Service.Memory
import Mathlib.Control.Monad.Basic

/-! The protocol of a run. What a run does with a document is a course of three phases, each of
which has a transcript of its own, and the first phase that fails ends the course. Every course asks
the service in one order: to register the graph, to take the document, for the state of its job
until that is completed, and for the artifacts.
-/

namespace DocPipeline.Run

variable {σ : Type}

-----------------------------------------------------------------------------------------
-- The phases of a course
-----------------------------------------------------------------------------------------

/-- The registration of the graph, if that is wanted. -/
def registration (plan : Plan σ) (answer : Except Failure Unit) : List Exchange :=
  if plan.settings.createGraph then [.create plan.graph answer] else []

/-- How a document is sent: the exchanges, and the content that the service makes of it. -/
inductive Submission (plan : Plan σ) (document : Document)
    : List Exchange → Except Failure String → Prop
  | unregistered (failure : Failure) (wanted : plan.settings.createGraph = true)
    : Submission plan document (registration plan (.error failure)) (.error failure)
  | answered (answer : Except Failure String)
    : Submission plan document
        (registration plan (.ok ()) ++ [.upload plan.graph.name document.path answer]) answer

/-- How the text is fetched: the exchange, and the text of the first artifact. -/
inductive Retrieval (plan : Plan σ) (policy : Policy) (content : String)
    : Exchange → Except Failure String → Prop
  | unfetched (failure : Failure)
    : Retrieval plan policy content (.fetch content plan.graph.name policy.name (.error failure))
        (.error failure)
  | fetched {artifacts : List Artifact} {result : Except Failure String}
    (reads : Artifact.firstText content policy.name artifacts = result)
    : Retrieval plan policy content (.fetch content plan.graph.name policy.name (.ok artifacts))
        result

/-- The turns of a submission that returned a content, with the reports around it. -/
def opening (plan : Plan σ) (size : Nat) (sent : List Exchange) (content : String)
    : List Turn :=
  Turn.report plan.settings.listener (.inputReady size) ++ sent.map .exchanged
    ++ Turn.report plan.settings.listener (.submitted content)

/-- What a run does with a document of a size, and the result. The first phase that fails is the
last one, and its failure is the result.
-/
inductive Course (plan : Plan σ) (policy : Policy) (document : Document) (size : Nat)
    : List Turn → Except Failure Delivery → Prop
  | unsubmitted {sent failure} (submission : Submission plan document sent (.error failure))
    : Course plan policy document size
        (Turn.report plan.settings.listener (.inputReady size) ++ sent.map .exchanged)
        (.error failure)
  | unfinished {sent content answers failure}
    (submission : Submission plan document sent (.ok content))
    (ending : Wait.Ending plan.clock plan.settings.schedule content answers (.error failure))
    : Course plan policy document size
        (opening plan size sent content
          ++ Turn.ofAnswers plan.settings.listener content 1 answers)
        (.error failure)
  | unread {sent content answers checks fetch failure}
    (submission : Submission plan document sent (.ok content))
    (ending : Wait.Ending plan.clock plan.settings.schedule content answers (.ok checks))
    (retrieval : Retrieval plan policy content fetch (.error failure))
    : Course plan policy document size
        (opening plan size sent content
          ++ Turn.ofAnswers plan.settings.listener content 1 answers ++ [.exchanged fetch])
        (.error failure)
  | delivered {sent content answers checks fetch text}
    (submission : Submission plan document sent (.ok content))
    (ending : Wait.Ending plan.clock plan.settings.schedule content answers (.ok checks))
    (retrieval : Retrieval plan policy content fetch (.ok text))
    : Course plan policy document size
        (opening plan size sent content
          ++ Turn.ofAnswers plan.settings.listener content 1 answers ++ [.exchanged fetch]
          ++ Turn.report plan.settings.listener (.complete text.length))
        (.ok ⟨text, content, plan.graph.name, policy.name,
          Tally.untimed document.downloadedBytes size checks text.length⟩)

/-- The part of a submission behind the registration. -/
def send (plan : Plan σ) (document : Document) : Phase σ String := do
  let tree ← Phase.examine .ok
  let content ← Phase.consult (.upload plan.graph.name document.path)
    (plan.service.upload plan.graph.name document.path tree)
  Phase.report plan.settings.listener (.submitted content)
  return content

/-- The turns of a submission: its exchanges, and a report of the content. -/
def turnsOf (plan : Plan σ) (sent : List Exchange) : Except Failure String → List Turn
  | .ok content => sent.map .exchanged ++ Turn.report plan.settings.listener (.submitted content)
  | .error _ => sent.map .exchanged

/-- A document is sent in one exchange and a report, by cases on the answer. -/
theorem send_transcribed (plan : Plan σ) (document : Document) (scene : Scene σ)
    : ∃ answer last, Phase.Transcribed plan.service (send plan document) scene
        (turnsOf plan [.upload plan.graph.name document.path answer] answer) answer last := by
  have looked := Phase.Transcribed.examine plan.service Except.ok scene
  obtain ⟨answer, between, asked⟩ := Phase.Transcribed.consult plan.service
    (.upload plan.graph.name document.path)
    (plan.service.upload plan.graph.name document.path scene.tree)
    (.upload plan.graph.name document.path) scene (fun _ => rfl) (fun _ _ called => called)
  cases answer with
  | error failure => exact ⟨.error failure, between, looked.bind asked.bind_error rfl⟩
  | ok content =>
      obtain ⟨last, told⟩ := Phase.Transcribed.report plan.service
        plan.settings.listener (.submitted content) between
      have returned := Phase.Transcribed.purely plan.service (Except.ok content) last
      have answered : Phase.Transcribed plan.service
          (Phase.report plan.settings.listener (.submitted content) >>= fun _ => pure content)
          between (Turn.report plan.settings.listener (.submitted content)) (.ok content) last :=
        told.bind returned (List.append_nil _).symm
      exact ⟨.ok content, last, looked.bind (asked.bind answered rfl) rfl⟩

/-- A submission is transcribed with its exchanges. The registration comes first and ends the
submission when it fails.
-/
theorem submit_transcribed (plan : Plan σ) (document : Document) (scene : Scene σ)
    : ∃ sent result last,
        Submission plan document sent result
        ∧ Phase.Transcribed plan.service (submit plan document) scene (turnsOf plan sent result)
            result last := by
  by_cases wanted : plan.settings.createGraph = true
  · have split : submit plan document
        = Phase.consult (.create plan.graph) (plan.service.create plan.graph)
          >>= fun _ => send plan document := by
      simp only [submit, wanted, if_true]
      rfl
    obtain ⟨answer, between, asked⟩ := Phase.Transcribed.consult plan.service
      (.create plan.graph) (plan.service.create plan.graph)
      (.create plan.graph) scene (fun _ => rfl) (fun _ _ called => called)
    rw [split]
    cases answer with
    | error failure =>
        refine ⟨_, .error failure, between, .unregistered failure wanted, ?_⟩
        simpa [registration, wanted, turnsOf] using asked.bind_error
    | ok _ =>
        obtain ⟨answer, last, sent⟩ := send_transcribed plan document between
        refine ⟨_, answer, last, .answered answer, asked.bind sent ?_⟩
        cases answer <;> simp [registration, wanted, turnsOf]
  · have same : submit plan document = send plan document := by
      simp only [submit, wanted]
      rfl
    obtain ⟨answer, last, sent⟩ := send_transcribed plan document scene
    refine ⟨_, answer, last, .answered answer, ?_⟩
    simpa [registration, wanted, same] using sent

/-- A retrieval is transcribed with its exchange, by cases on the answer. -/
theorem text_transcribed (plan : Plan σ) (policy : Policy) (content : String) (scene : Scene σ)
    : ∃ fetch result last,
        Retrieval plan policy content fetch result
        ∧ Phase.Transcribed plan.service (text plan policy.name content) scene
            [.exchanged fetch] result last := by
  obtain ⟨answer, last, asked⟩ := Phase.Transcribed.consult plan.service
    (.fetch content plan.graph.name policy.name)
    (plan.service.fetch content plan.graph.name policy.name)
    (.fetch content plan.graph.name policy.name) scene (fun _ => rfl) (fun _ _ called => called)
  cases answer with
  | error failure => exact ⟨_, _, last, .unfetched failure, asked.bind_error⟩
  | ok artifacts =>
      exact ⟨_, _, last, .fetched rfl, asked.bind (.purely plan.service _ last) rfl⟩

/-- Whatever is done with a document is a course, and is transcribed with its turns. The phases are
joined from the first to the last, and each failure leaves the phases after it out.
-/
theorem process_transcribed (plan : Plan σ) (policy : Policy) (document : Document) (size : Nat)
    (scene : Scene σ) (measured : document.size scene.tree = .ok size)
    : ∃ turns result last,
        Course plan policy document size turns result
        ∧ Phase.Transcribed plan.service (process plan policy document) scene turns result
            last := by
  have looked := Phase.Transcribed.examine plan.service document.size scene
  rw [measured] at looked
  obtain ⟨ready, told⟩ := Phase.Transcribed.report plan.service plan.settings.listener
    (.inputReady size) scene
  obtain ⟨sent, answer, submitted, submission, sending⟩ := submit_transcribed plan document ready
  cases answer with
  | error failure =>
      exact ⟨_, _, submitted, .unsubmitted submission,
        looked.bind (told.bind sending.bind_error rfl) rfl⟩
  | ok content =>
      obtain ⟨answers, ended, waited, ending, waiting⟩ := Phase.Transcribed.wait plan.service
        plan.settings.listener content plan.clock plan.settings.schedule submitted
      cases ended with
      | error failure =>
          refine ⟨_, _, waited, .unfinished submission ending,
            looked.bind (told.bind (sending.bind waiting.bind_error rfl) rfl) ?_⟩
          simp [opening, turnsOf]
      | ok checks =>
          obtain ⟨fetch, read, fetched, retrieval, reading⟩ := text_transcribed plan policy content
            waited
          cases read with
          | error failure =>
              refine ⟨_, _, fetched, .unread submission ending retrieval,
                looked.bind (told.bind (sending.bind (waiting.bind reading.bind_error rfl) rfl)
                  rfl) ?_⟩
              simp [opening, turnsOf]
          | ok text =>
              obtain ⟨last, done⟩ := Phase.Transcribed.report plan.service plan.settings.listener
                (.complete text.length) fetched
              have returned := Phase.Transcribed.purely plan.service (.ok (Delivery.mk text content
                plan.graph.name policy.name
                (Tally.untimed document.downloadedBytes size checks text.length))) last
              refine ⟨_, _, last, .delivered submission ending retrieval,
                looked.bind (told.bind (sending.bind (waiting.bind (reading.bind
                  (done.bind returned (List.append_nil _).symm) rfl) rfl) rfl) rfl) ?_⟩
              simp [opening, turnsOf]

-----------------------------------------------------------------------------------------
-- The order of the questions
-----------------------------------------------------------------------------------------

/-- The questions of a run that gets as far as fetching the artifacts, after so many checks. -/
def protocol (plan : Plan σ) (policy : Policy) (document : Document) (content : String)
    (checks : Nat) : List Question :=
  (if plan.settings.createGraph then [.create plan.graph] else [])
    ++ [.upload plan.graph.name document.path] ++ List.replicate checks (.status content)
    ++ [.fetch content plan.graph.name policy.name]

/-- The exchanges of such a run: all questions before the last one are answered as hoped. -/
def exchangesUpToFetch (plan : Plan σ) (policy : Policy) (document : Document)
    (content : String) (pending : Nat) (answer : Except Failure (List Artifact))
    : List Exchange :=
  registration plan (.ok ()) ++ [.upload plan.graph.name document.path (.ok content)]
    ++ List.replicate pending (.status content (.ok .pending))
    ++ [.status content (.ok .completed), .fetch content plan.graph.name policy.name answer]

/-- A registration holds nothing but its exchange, if that is wanted. -/
@[simp]
theorem mem_registration {plan : Plan σ} {answer : Except Failure Unit} {exchange : Exchange}
    : exchange ∈ registration plan answer
      ↔ plan.settings.createGraph = true ∧ exchange = .create plan.graph answer := by
  unfold registration
  split <;> simp_all

/-- The questions of a registration do not depend on its answer. -/
@[simp]
theorem map_question_registration (plan : Plan σ) (answer : Except Failure Unit)
    : (registration plan answer).map Exchange.question
      = if plan.settings.createGraph then [.create plan.graph] else [] := by
  unfold registration
  split <;> rfl

/-- A submission that returns a content has asked for the registration and the upload, by cases on
its ways.
-/
theorem Submission.exchanges_of_ok {plan : Plan σ} {document : Document}
    {sent : List Exchange} {content : String}
    (submission : Submission plan document sent (.ok content))
    : sent = registration plan (.ok ())
        ++ [.upload plan.graph.name document.path (.ok content)] := by
  cases submission
  rfl

/-- The exchanges of an opening are those of the submission. -/
@[simp]
theorem filterMap_exchange?_opening (plan : Plan σ) (size : Nat) (sent : List Exchange)
    (content : String)
    : (opening plan size sent content).filterMap Turn.exchange? = sent := by
  simp [opening, Turn.exchange?, List.filterMap_map, Function.comp_def]

/-- The statuses of a wait that succeeds: some are pending and the last one is completed. -/
theorem ending_ok {clock : Clock} {schedule : Schedule} {content : String}
    {answers : List (Except Failure Status)} {checks : Nat}
    (ending : Wait.Ending clock schedule content answers (.ok checks))
    : ∃ pending, answers = List.replicate pending (.ok .pending) ++ [.ok .completed] := by
  cases ending with
  | completed pending => exact ⟨pending, rfl⟩

/-- The exchanges of a course that fetches the artifacts, by joining the phases before that. -/
theorem exchanges_of_fetch {plan : Plan σ} {policy : Policy} {document : Document} {size : Nat}
    {sent : List Exchange} {content : String} {answers : List (Except Failure Status)}
    {checks : Nat} {answer : Except Failure (List Artifact)}
    (submission : Submission plan document sent (.ok content))
    (ending : Wait.Ending plan.clock plan.settings.schedule content answers (.ok checks))
    : ∃ pending,
        (opening plan size sent content
            ++ Turn.ofAnswers plan.settings.listener content 1 answers
            ++ [Turn.exchanged (.fetch content plan.graph.name policy.name answer)]).filterMap
            Turn.exchange?
          = exchangesUpToFetch plan policy document content pending answer := by
  obtain ⟨pending, rfl⟩ := ending_ok ending
  refine ⟨pending, ?_⟩
  rw [submission.exchanges_of_ok]
  simp [exchangesUpToFetch, Turn.exchange?]

/-- The exchanges of a course and the text it leads to: the submission fails, or the wait does, or
the artifacts are asked for, and then the answer alone decides the text.
-/
inductive Dialogue (plan : Plan σ) (policy : Policy) (document : Document)
    : List Exchange → Except Failure String → Prop
  | unsubmitted {sent failure} (submission : Submission plan document sent (.error failure))
    : Dialogue plan policy document sent (.error failure)
  | unfinished (content : String) (answers : List (Except Failure Status)) (failure : Failure)
    : Dialogue plan policy document
        (registration plan (.ok ()) ++ [.upload plan.graph.name document.path (.ok content)]
          ++ answers.map (.status content))
        (.error failure)
  | fetched (content : String) (pending : Nat) (answer : Except Failure (List Artifact))
    {result} (reads : answer.bind (Artifact.firstText content policy.name) = result)
    : Dialogue plan policy document
        (exchangesUpToFetch plan policy document content pending answer) result

/-- Every course is a dialogue, by cases on the phase that ends it. -/
theorem Course.dialogue {plan : Plan σ} {policy : Policy} {document : Document} {size : Nat}
    {turns : List Turn} {result : Except Failure Delivery}
    (course : Course plan policy document size turns result)
    : Dialogue plan policy document (turns.filterMap Turn.exchange?)
        (result.map Delivery.text) := by
  cases course with
  | @unsubmitted sent failure submission =>
      refine .unsubmitted ?_
      simpa [Turn.exchange?, List.filterMap_map, Function.comp_def] using submission
  | @unfinished sent content answers failure submission ending =>
      rw [List.filterMap_append, filterMap_exchange?_opening, submission.exchanges_of_ok,
        Turn.filterMap_exchange?_ofAnswers]
      exact .unfinished content answers failure
  | @unread sent content answers checks fetch failure submission ending retrieval =>
      cases retrieval with
      | unfetched =>
          obtain ⟨pending, exchanges⟩ := exchanges_of_fetch submission ending
          rw [exchanges]
          exact .fetched content pending (.error failure) rfl
      | @fetched artifacts _ reads =>
          obtain ⟨pending, exchanges⟩ := exchanges_of_fetch submission ending
          rw [exchanges]
          exact .fetched content pending (.ok artifacts) reads
  | @delivered sent content answers checks fetch text submission ending retrieval =>
      cases retrieval with
      | @fetched artifacts _ reads =>
          obtain ⟨pending, exchanges⟩ := exchanges_of_fetch submission ending
          rw [List.filterMap_append, exchanges, Turn.filterMap_exchange?_report, List.append_nil]
          exact .fetched content pending (.ok artifacts) reads

namespace Dialogue

variable {plan : Plan σ} {policy : Policy} {document : Document} {exchanges : List Exchange}
  {result : Except Failure String}

/-- Artifacts are asked for only when the last status was completed and all before it pending, since
no other dialogue has such a question.
-/
theorem exchanges_of_mem_fetch (dialogue : Dialogue plan policy document exchanges result)
    {content graph name : String} {answer : Except Failure (List Artifact)}
    (asked : .fetch content graph name answer ∈ exchanges)
    : ∃ pending, exchanges = exchangesUpToFetch plan policy document content pending answer := by
  cases dialogue with
  | unsubmitted submission => cases submission <;> simp at asked
  | unfinished => simp at asked
  | fetched named pending given =>
      simp only [exchangesUpToFetch, List.append_assoc, List.mem_append, mem_registration,
        reduceCtorEq, and_false, List.mem_replicate, List.mem_cons, List.not_mem_nil, or_false,
        false_or, Exchange.fetch.injEq] at asked
      exact ⟨pending, by rw [asked.1, asked.2.2.2]⟩

/-- A dialogue leads to a text exactly when every question is answered as hoped and the first
artifact is that text.
-/
theorem result_eq_ok_iff (dialogue : Dialogue plan policy document exchanges result)
    (text : String)
    : result = .ok text
      ↔ ∃ content pending artifacts,
          exchanges = exchangesUpToFetch plan policy document content pending (.ok artifacts)
          ∧ Artifact.firstText content policy.name artifacts = .ok text := by
  constructor
  · rintro rfl
    cases dialogue with
    | @fetched content pending answer _ reads =>
        cases answer with
        | error failure => cases reads
        | ok artifacts => exact ⟨content, pending, artifacts, rfl, reads⟩
  · rintro ⟨content, pending, artifacts, same, decoded⟩
    have asked : Exchange.fetch content plan.graph.name policy.name (.ok artifacts)
        ∈ exchanges := by simp [same, exchangesUpToFetch]
    cases dialogue with
    | unsubmitted submission => cases submission <;> simp at asked
    | unfinished => simp at asked
    | fetched named more given reads =>
        simp only [exchangesUpToFetch, List.append_assoc, List.mem_append, mem_registration,
          reduceCtorEq, and_false, List.mem_replicate, List.mem_cons, List.not_mem_nil, or_false,
          false_or, Exchange.fetch.injEq, true_and] at asked
        rw [← reads, ← asked.1, ← asked.2]
        exact decoded

/-- The questions of a dialogue are the first ones of the protocol, in order and without repetition,
and they name the content that the service has made of the document.
-/
theorem questions_prefix (dialogue : Dialogue plan policy document exchanges result)
    : ∃ content checks,
        0 < checks
        ∧ exchanges.map Exchange.question <+: protocol plan policy document content checks
        ∧ ∀ returned,
            .upload plan.graph.name document.path (.ok returned) ∈ exchanges
            → returned = content := by
  cases dialogue with
  | unsubmitted submission =>
      refine ⟨"", 1, Nat.one_pos, ?_, ?_⟩
      · cases submission with
        | unregistered failure wanted => simp [protocol, wanted]
        | answered => simp [protocol, Exchange.question]
      · intro returned member
        cases submission <;> simp at member
  | unfinished content answers failure =>
      refine ⟨content, answers.length + 1, Nat.succ_pos _, ?_, ?_⟩
      · have statuses : (answers.map (Exchange.status content)).map Exchange.question
            = List.replicate answers.length (.status content) := by
          simp [List.map_map, Function.comp_def, Exchange.question, List.map_const']
        simp only [List.map_append, map_question_registration, statuses, protocol,
          List.replicate_succ', List.append_assoc, List.prefix_append_right_inj]
        simp [Exchange.question]
      · intro returned member
        simpa using member
  | fetched content pending answer =>
      refine ⟨content, pending + 1, Nat.succ_pos pending, ?_, ?_⟩
      · simp [exchangesUpToFetch, protocol, Exchange.question, List.replicate_succ']
      · intro returned member
        simpa [exchangesUpToFetch] using member

end Dialogue

-----------------------------------------------------------------------------------------
-- Whole runs
-----------------------------------------------------------------------------------------

/-- A graph that breaks a rule has no output policy. -/
theorem outputPolicy_of_violation {graph : Graph} {violation : Graph.Violation}
    (broken : graph.validate = .error violation)
    : outputPolicy graph = .error violation.failure := by
  simp only [outputPolicy, broken]
  rfl

/-- A graph that keeps all rules has policies, since the second rule asks for them. -/
theorem policies_ne_nil_of_validate {graph : Graph} (valid : graph.validate = .ok ())
    : graph.policies ≠ [] := by
  intro none
  simp only [Graph.validate, none, List.isEmpty_nil, if_true] at valid
  cases unnamed : Text.isEmptyTrimmed graph.name with
  | false =>
      rw [unnamed] at valid
      cases valid
  | true =>
      rw [unnamed] at valid
      cases valid

/-- The output policy of a graph that keeps all rules is the last one that it declares. -/
theorem outputPolicy_of_valid {graph : Graph} (valid : graph.validate = .ok ())
    : ∃ policy,
        graph.policies.getLast? = some policy ∧ outputPolicy graph = .ok policy := by
  have nonempty := policies_ne_nil_of_validate valid
  refine ⟨graph.policies.getLast nonempty, List.getLast?_eq_some_getLast nonempty, ?_⟩
  simp only [outputPolicy, valid, Graph.outputPolicy?, List.getLast?_eq_some_getLast nonempty]
  rfl

/-- A run with an output policy begins by finding the document. -/
theorem deliver_outcome_of_policy {plan : Plan σ} {policy : Policy} (input : String)
    (scene : Scene σ) (found : outputPolicy plan.graph = .ok policy)
    : (deliver plan input).outcome scene
      = (resolve plan input >>= fun document =>
          releasing document (process plan policy document)).outcome scene :=
  Phase.outcome_bind_ok (by rw [Phase.outcome_purely, found])

/-- A run whose document cannot be found ends there, before the service is asked. -/
theorem deliver_outcome_of_unresolved {plan : Plan σ} {policy : Policy} {input : String}
    {scene : Scene σ} {failure : Failure} (found : outputPolicy plan.graph = .ok policy)
    (unresolved : ((resolve plan input).outcome scene).1 = .error failure)
    : (deliver plan input).outcome scene
      = (.error failure, ((resolve plan input).outcome scene).2) := by
  rw [deliver_outcome_of_policy input scene found]
  exact Phase.outcome_bind_error (Prod.ext unresolved rfl)

/-- A run whose document is found goes on with it. Freeing the tree afterwards changes neither the
result nor the outside nor the record.
-/
theorem deliver_outcome_of_resolved {plan : Plan σ} {policy : Policy} {input : String}
    {scene : Scene σ} {document : Document} (found : outputPolicy plan.graph = .ok policy)
    (resolved : ((resolve plan input).outcome scene).1 = .ok document)
    : let outcome := (deliver plan input).outcome scene
      let processed :=
        (process plan policy document).outcome ((resolve plan input).outcome scene).2
      outcome.1 = processed.1 ∧ outcome.2.outside = processed.2.outside
        ∧ outcome.2.moments = processed.2.moments := by
  intro outcome processed
  have goes : outcome = (releasing document (process plan policy document)).outcome
      ((resolve plan input).outcome scene).2 :=
    (deliver_outcome_of_policy input scene found).trans
      (Phase.outcome_bind_ok (Prod.ext resolved rfl))
  rw [goes]
  exact ⟨rfl, rfl, rfl⟩

/-- A document without a size ends what is done with it. -/
theorem process_outcome_of_unmeasured {plan : Plan σ} {policy : Policy} {document : Document}
    {scene : Scene σ} {failure : Failure}
    (unmeasured : document.size scene.tree = .error failure)
    : (process plan policy document).outcome scene = (.error failure, scene) := by
  have looked := Phase.Transcribed.examine plan.service document.size scene
  rw [unmeasured] at looked
  exact Phase.outcome_bind_error looked.outcome

/-- A run asks the service in the order of the protocol. A graph that breaks a rule ends the run at
once and leaves everything as it is. An input that cannot be resolved ends it before the service is
asked. Every other run is a course: its turns are what happens to the service, they are put on
record, and their questions are the first ones of the protocol with the content of this run's upload
and the last policy of the graph. Artifacts are asked for only behind a completed status with
pending ones before it, and there is a text exactly when every phase succeeds and the first artifact
is one.
-/
theorem deliver_keeps_protocol (plan : Plan σ) (input : String) (scene : Scene σ)
    : let outcome := (deliver plan input).outcome scene
      let resolution := (resolve plan input).outcome scene
      (∀ violation, plan.graph.validate = .error violation
        → outcome = (.error violation.failure, scene))
      ∧ (plan.graph.validate = .ok ()
          → ∃ policy, plan.graph.policies.getLast? = some policy
            ∧ (∀ failure,
                resolution.1.bind (fun document => document.size resolution.2.tree)
                  = .error failure
                → outcome.1 = .error failure
                  ∧ outcome.2.outside.service = scene.outside.service
                  ∧ outcome.2.moments = scene.moments)
            ∧ ∀ document size,
                resolution.1 = .ok document
                → document.size resolution.2.tree = .ok size
                → ∃ turns,
                    Course plan policy document size turns outcome.1
                    ∧ Turn.Happen plan.service resolution.2.tree resolution.2.outside turns
                        outcome.2.outside
                    ∧ outcome.2.moments = scene.moments ++ turns.map Turn.moment
                    ∧ (∃ content checks,
                        0 < checks
                        ∧ (turns.filterMap Turn.exchange?).map Exchange.question
                          <+: protocol plan policy document content checks
                        ∧ ∀ returned,
                            .upload plan.graph.name document.path (.ok returned)
                              ∈ turns.filterMap Turn.exchange?
                            → returned = content)
                    ∧ (∀ content graph name answer,
                        .fetch content graph name answer ∈ turns.filterMap Turn.exchange?
                        → ∃ pending,
                            turns.filterMap Turn.exchange?
                              = exchangesUpToFetch plan policy document content pending answer)
                    ∧ ∀ text,
                        outcome.1.map Delivery.text = .ok text
                        ↔ ∃ content pending artifacts,
                            turns.filterMap Turn.exchange?
                              = exchangesUpToFetch plan policy document content pending
                                  (.ok artifacts)
                            ∧ Artifact.firstText content policy.name artifacts = .ok text) := by
  intro outcome resolution
  refine ⟨?_, ?_⟩
  · intro violation broken
    exact Phase.outcome_bind_error (by
      rw [Phase.outcome_purely, outputPolicy_of_violation broken])
  · intro valid
    obtain ⟨policy, last, found⟩ := outputPolicy_of_valid valid
    refine ⟨policy, last, ?_, ?_⟩
    · intro failure unready
      cases resolved : resolution.1 with
      | error other =>
          rw [resolved] at unready
          cases unready
          have ends : outcome = (.error failure, resolution.2) :=
            deliver_outcome_of_unresolved found resolved
          rw [ends]
          exact ⟨rfl, rfl, rfl⟩
      | ok document =>
          rw [resolved] at unready
          obtain ⟨result, outside, moments⟩ := deliver_outcome_of_resolved found resolved
          rw [result, outside, moments, process_outcome_of_unmeasured unready]
          exact ⟨rfl, rfl, rfl⟩
    · intro document size resolved measured
      obtain ⟨turns, ended, after, course, transcribed⟩ :=
        process_transcribed plan policy document size resolution.2 measured
      obtain ⟨result, outside, moments⟩ := deliver_outcome_of_resolved found resolved
      rw [result, outside, moments, transcribed.outcome]
      have dialogue := course.dialogue
      exact ⟨turns, course, transcribed.happen, transcribed.recorded,
        dialogue.questions_prefix, fun _ _ _ _ asked => dialogue.exchanges_of_mem_fetch asked,
        dialogue.result_eq_ok_iff⟩

/-- The second of two policies, which reads the first. -/
def secondStep : Policy :=
  ⟨"x", "second", ⟨"m", "k", "p"⟩, some "first"⟩

/-- A run of two policies over a service in memory. -/
def twoStepPlan : Plan Memory where
  settings := .standard
  graph := ⟨"g", none, [⟨"x", "first", ⟨"m", "k", "p"⟩, none⟩, secondStep]⟩
  service := Memory.service ⟨.ok (), .ok "c", .ok [⟨"a", "text/plain", [72, 105]⟩]⟩
  peer := Web.unreachable
  clock := .exact (2 ^ 80)

/-- A document whose job is pending once. -/
def oneDocument : Scene Memory where
  tree := ⟨[], [(["doc.pdf".toList], .file [1, 2, 3])]⟩
  outside := ⟨Memory.fresh [.ok .pending, .ok .completed], .none⟩
  moments := []

/-- A run of two policies fetches what the second one made, after a pending and a completed status,
and its text is the first artifact.
-/
theorem deliver_keeps_protocol_of_two_steps
    : twoStepPlan.graph.validate = .ok ()
      ∧ ((resolve twoStepPlan "doc.pdf").outcome oneDocument).1 = .ok (.present "doc.pdf")
      ∧ ∃ turns,
          Course twoStepPlan secondStep (.present "doc.pdf") 3 turns
            ((deliver twoStepPlan "doc.pdf").outcome oneDocument).1
          ∧ ∃ content pending artifacts,
              turns.filterMap Turn.exchange?
                = exchangesUpToFetch twoStepPlan secondStep (.present "doc.pdf") content pending
                    (.ok artifacts)
              ∧ Artifact.firstText content secondStep.name artifacts = .ok "Hi" := by
  have valid : twoStepPlan.graph.validate = .ok () := by decide
  have resolved : ((resolve twoStepPlan "doc.pdf").outcome oneDocument).1
      = .ok (.present "doc.pdf") := by decide
  obtain ⟨policy, last, _, runs⟩ :=
    (deliver_keeps_protocol twoStepPlan "doc.pdf" oneDocument).2 valid
  obtain rfl : secondStep = policy := Option.some.inj last
  obtain ⟨turns, course, _, _, _, _, delivers⟩ := runs (.present "doc.pdf") 3 resolved (by decide)
  exact ⟨valid, resolved, turns, course, (delivers "Hi").mp (by decide +kernel)⟩

end DocPipeline.Run
