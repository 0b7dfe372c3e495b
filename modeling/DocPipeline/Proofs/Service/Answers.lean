import DocPipeline.Proofs.Files.Entry
import DocPipeline.Proofs.Service.Artifacts
import DocPipeline.Proofs.Text.Pieces

/-! What answers mean. A client asks once for an operation, and the answer after all redirects is
granted, refused or unclear. Every operation reads this off its answer in its own table, and there
is a row for every answer.
-/

namespace DocPipeline

-----------------------------------------------------------------------------------------
-- Answers
-----------------------------------------------------------------------------------------

/-- The answer grants what was asked for. -/
def Web.Answer.Grants (answer : Web.Answer) : Prop :=
  200 ≤ answer.code ∧ answer.code ≤ 299

theorem Web.Answer.isSuccess_iff {answer : Web.Answer}
    : Web.Code.isSuccess answer.code = true ↔ answer.Grants := by
  simp only [Web.Code.isSuccess, Bool.and_eq_true, decide_eq_true_eq, Web.Answer.Grants]
  omega

namespace Client

/-- The text that comes with a refusal: the body with every ill-formed piece replaced, if all of it
arrives, and nothing otherwise.
-/
inductive Explains (answer : Web.Answer) : String → Prop
  | whole {text : String} (arrives : answer.arrival = .whole)
    (repaired : ∀ cs, Text.Utf8.Repaired answer.body cs ↔ cs = text.toList)
    : Explains answer text
  | lost (breaks : answer.arrival ≠ .whole) : Explains answer ""

theorem refusalText_explains (answer : Web.Answer) : Explains answer (refusalText answer) := by
  unfold refusalText Web.Answer.wholeBody
  cases arrives : answer.arrival with
  | whole => exact .whole arrives fun _ => Text.Utf8.repaired_iff
  | cut | late => exact .lost (by simp [arrives])

/-- An answer that does not grant an operation refuses it, with its code and its text. -/
inductive Refuses (operation : String) (answer : Web.Answer) : Failure → Prop
  | refused {text : String} (denies : ¬ answer.Grants) (explains : Explains answer text)
    : Refuses operation answer (.serviceRefused operation answer.code text)

/-- What an answer says to an operation that reads values of a kind. -/
inductive Reads {α : Type} (operation : String) (read : Json → Option α) (answer : Web.Answer)
    : Except Failure α → Prop
  | clear {value : α} (grants : answer.Grants) (arrives : answer.arrival = .whole)
    (found : (Json.ofBytes answer.body).bind read = some value)
    : Reads operation read answer (.ok value)
  | broken (grants : answer.Grants) (breaks : answer.arrival ≠ .whole)
    : Reads operation read answer
        (.error (.answerUnclear operation "error decoding response body"))
  | garbled (grants : answer.Grants) (arrives : answer.arrival = .whole)
    (lost : (Json.ofBytes answer.body).bind read = none)
    : Reads operation read answer
        (.error (.answerUnclear operation "error decoding response body"))
  | refused {failure : Failure} (refusal : Refuses operation answer failure)
    : Reads operation read answer (.error failure)

theorem granted_of_grants {operation : String} {answer : Web.Answer} (grants : answer.Grants)
    : granted operation (.ok answer) = .ok answer := by
  rw [granted, if_pos (Web.Answer.isSuccess_iff.mpr grants)]

theorem granted_of_denies {operation : String} {answer : Web.Answer} (denies : ¬ answer.Grants)
    : granted operation (.ok answer)
      = .error (.serviceRefused operation answer.code (refusalText answer)) := by
  rw [granted, if_neg (mt Web.Answer.isSuccess_iff.mp denies)]

/-- What a client understands of an answer is what it says, by cases on the answer. -/
theorem understood_reads {α : Type} (operation : String) (read : Json → Option α)
    (answer : Web.Answer)
    : Reads operation read answer
        (granted operation (.ok answer) >>= understood operation read) := by
  by_cases grants : answer.Grants
  · rw [granted_of_grants grants, Except.ok_bind, understood, body, Web.Answer.wholeBody]
    cases arrives : answer.arrival with
    | whole =>
        rw [Except.ok_mapError, Except.ok_bind]
        cases found : (Json.ofBytes answer.body).bind read with
        | none => exact .garbled grants arrives found
        | some value => exact .clear grants arrives found
    | cut | late => exact .broken grants (by simp [arrives])
  · rw [granted_of_denies grants]
    exact .refused (.refused grants (refusalText_explains answer))

-----------------------------------------------------------------------------------------
-- The tables of the operations
-----------------------------------------------------------------------------------------

/-- What an answer means for the registration of a graph. A name that is taken is no refusal. -/
inductive Registered (client : Client) (graph : Graph) (answer : Web.Answer)
    : Except Failure Unit → Prop
  | granted (grants : answer.Grants) : Registered client graph answer (.ok ())
  | reused (taken : answer.code = 409) (reuses : client.reuseGraph = true)
    : Registered client graph answer (.ok ())
  | exists (taken : answer.code = 409) (keeps : client.reuseGraph = false)
    : Registered client graph answer (.error (.graphExists graph.name client.space))
  | refused {failure : Failure} (free : answer.code ≠ 409)
    (refusal : Refuses "graph creation" answer failure)
    : Registered client graph answer (.error failure)

/-- What an answer means for an upload. A name without characters names nothing. -/
inductive Uploaded (answer : Web.Answer) : Except Failure String → Prop
  | named {content : String} (reads : Reads "upload" Wire.content answer (.ok content))
    (some : content ≠ "") : Uploaded answer (.ok content)
  | nameless (reads : Reads "upload" Wire.content answer (.ok ""))
    : Uploaded answer (.error (.answerUnclear "upload" "empty content_id"))
  | failed {failure : Failure} (reads : Reads "upload" Wire.content answer (.error failure))
    : Uploaded answer (.error failure)

/-- What an answer means for a question about a job. -/
inductive Checked (answer : Web.Answer) : Except Failure Status → Prop
  | told {tasks : List Task} (reads : Reads "status check" Wire.tasks answer (.ok tasks))
    : Checked answer (.ok (Status.ofTasks tasks))
  | failed {failure : Failure} (reads : Reads "status check" Wire.tasks answer (.error failure))
    : Checked answer (.error failure)

/-- What a client makes of the answer to a registration, by cases on its code. -/
theorem registered_table (client : Client) (graph : Graph) (answer : Web.Answer)
    : Registered client graph answer
        (client.registered graph (granted "graph creation" (.ok answer))) := by
  by_cases grants : answer.Grants
  · rw [granted_of_grants grants]
    exact .granted grants
  · rw [granted_of_denies grants, registered, conflict]
    by_cases taken : answer.code = 409
    · rw [if_pos taken]
      cases reuses : client.reuseGraph with
      | true => exact .reused taken reuses
      | false => exact .exists taken reuses
    · rw [if_neg taken]
      exact .refused taken (.refused grants (refusalText_explains answer))

/-- What a client makes of the answer to an upload, by cases on what it says. -/
theorem uploaded_table (answer : Web.Answer)
    : Uploaded answer
        (granted "upload" (.ok answer)
          >>= fun answer => understood "upload" Wire.content answer >>= named "upload") := by
  rw [← bind_assoc]
  have reads := understood_reads "upload" Wire.content answer
  cases heard : granted "upload" (.ok answer) >>= understood "upload" Wire.content with
  | error failure =>
      rw [heard] at reads
      exact .failed reads
  | ok content =>
      rw [heard] at reads
      rw [Except.ok_bind, named]
      by_cases empty : content = ""
      · subst empty
        exact .nameless reads
      · rw [if_neg (by simpa using empty)]
        exact .named reads empty

/-- What a client makes of the answer to a question about a job, by cases on what it says. -/
theorem checked_table (answer : Web.Answer)
    : Checked answer
        (granted "status check" (.ok answer)
          >>= fun answer => understood "status check" Wire.tasks answer
          >>= fun tasks => .ok (Status.ofTasks tasks)) := by
  rw [← bind_assoc]
  have reads := understood_reads "status check" Wire.tasks answer
  cases heard : granted "status check" (.ok answer) >>= understood "status check" Wire.tasks with
  | error failure =>
      rw [heard] at reads
      exact .failed reads
  | ok tasks =>
      rw [heard] at reads
      exact .told reads

-----------------------------------------------------------------------------------------
-- Calls
-----------------------------------------------------------------------------------------

/-- A call asks once for a thing with these names, and what comes back means its result. A base to
which no names can be added is refused before anything is sent; a request that is not answered fails
with the name of the operation; and every answer means what the table of the operation says.
-/
inductive Answered {σ α : Type} (client : Client) (peer : Web.Peer) (operation : String)
    (method : Web.Method) (names : List String) (payload : Web.Payload)
    (Means : Web.Answer → Except Failure α → Prop) (before : Outside σ)
    : Except Failure α × Outside σ → Prop
  | unusable {detail : String} (unusable : ∀ base, ¬ client.Extends base)
    : Answered client peer operation method names payload Means before
        (.error (client.badBase detail), before)
  | unanswered {base : Url} {hops : List Web.Request} {fault : Web.Fault} {after : Web.Traffic}
    (reaches : client.Extends base)
    (asks : Web.Hops peer (.to method (client.addressOn base names) payload) before.traffic hops
      (.error fault) after)
    (few : hops.length ≤ Web.followedRedirects + 1)
    : Answered client peer operation method names payload Means before
        (.error (.serviceUnreachable operation fault.message), { before with traffic := after })
  | answered {base : Url} {hops : List Web.Request} {answer : Web.Answer} {after : Web.Traffic}
    {result : Except Failure α} (reaches : client.Extends base)
    (asks : Web.Hops peer (.to method (client.addressOn base names) payload) before.traffic hops
      (.ok answer) after)
    (few : hops.length ≤ Web.followedRedirects + 1)
    (means : Means answer result)
    : Answered client peer operation method names payload Means before
        (result, { before with traffic := after })

/-- A base can be extended with names, or every address on it is refused; by cases on the base. -/
theorem extends_or_unusable (client : Client) (names : List String)
    : (∃ base, client.Extends base)
      ∨ (∀ base, ¬ client.Extends base)
        ∧ ∃ detail, client.address names = .error (client.badBase detail) := by
  cases parsed : Url.parse client.base with
  | error fault =>
      refine .inr ⟨fun base reaches => ?_, fault.message, by rw [address, parsed]⟩
      cases parsed.symm.trans reaches.parsed
  | ok base =>
      cases carries : base.carriesPath with
      | true => exact .inl ⟨base, parsed, carries⟩
      | false =>
          refine .inr ⟨fun other reaches => ?_, "cannot carry a path", ?_⟩
          · obtain rfl := Except.ok.inj (parsed.symm.trans reaches.parsed)
            cases carries.symm.trans reaches.carries
          · rw [address, parsed]
            dsimp only
            rw [if_neg (Bool.eq_false_iff.mp carries)]

/-- A call that finds its address first, sends its request once and judges what comes back by a
table is answered by that table; by cases on the base and on what comes back.
-/
theorem answered_of_judge {σ α : Type} (client : Client) (peer : Web.Peer) {operation : String}
    {method : Web.Method} {names : List String} {payload : Web.Payload}
    {Means : Web.Answer → Except Failure α → Prop} {before : Outside σ} {call : Url → Call σ α}
    (judge : Except Web.Fault Web.Answer → Except Failure α)
    (sends : ∀ url, (call url).outcome before
      = (judge (Web.send peer method url payload before.traffic).1,
          { before with traffic := (Web.send peer method url payload before.traffic).2 }))
    (fails : ∀ fault, judge (.error fault) = .error (.serviceUnreachable operation fault.message))
    (means : ∀ answer, Means answer (judge (.ok answer)))
    : Answered client peer operation method names payload Means before
        ((purely (client.address names) >>= call : Call σ α).outcome before) := by
  rw [Call.outcome_bind, outcome_purely]
  rcases extends_or_unusable client names with ⟨base, reaches⟩ | ⟨unusable, detail, refused⟩
  · rw [reaches.address]
    dsimp only
    rw [sends]
    obtain ⟨hops, asks, few⟩ := Web.follow_hops peer Web.followedRedirects
      (.to method (client.addressOn base names) payload) before.traffic
    rw [← Web.send] at asks
    generalize sent : Web.send peer method (client.addressOn base names) payload before.traffic
      = back at asks ⊢
    obtain ⟨result, after⟩ := back
    cases result with
    | error fault =>
        dsimp only
        rw [fails]
        exact .unanswered reaches asks few
    | ok answer => exact .answered reaches asks few (means answer)
  · rw [refused]
    exact .unusable unusable

theorem create_answered {σ : Type} (client : Client) (peer : Web.Peer) (graph : Graph)
    (before : Outside σ)
    : Answered client peer "graph creation" .post ["extraction_graphs"]
        (.json graph.toJson.compact) (Registered client graph) before
        ((client.create peer graph).outcome before) :=
  answered_of_judge client peer
    (fun result => client.registered graph (granted "graph creation" result))
    (fun _ => rfl) (fun _ => rfl) (registered_table client graph)

/-- A call that asks and then judges the answer on its own judges what is granted. -/
theorem outcome_ask_then {σ α : Type} {peer : Web.Peer} {operation : String} {method : Web.Method}
    {payload : Web.Payload} {call : Web.Answer → Call σ α}
    (judge : Web.Answer → Except Failure α)
    (judges : ∀ answer outside, (call answer).outcome outside = (judge answer, outside))
    (before : Outside σ) (url : Url)
    : (ask peer operation method url payload >>= call : Call σ α).outcome before
      = (granted operation (Web.send peer method url payload before.traffic).1 >>= judge,
          { before with traffic := (Web.send peer method url payload before.traffic).2 }) := by
  obtain ⟨service, traffic⟩ := before
  rw [Call.outcome_bind]
  rcases sent : Web.send peer method url payload traffic with ⟨result, after⟩
  rw [outcome_ask sent]
  cases granted operation result with
  | error failure => rfl
  | ok answer => exact judges answer _

theorem status_answered {σ : Type} (client : Client) (peer : Web.Peer) (content : String)
    (before : Outside σ)
    : Answered client peer "status check" .get ["content", content, "tasks"] .nothing Checked before
        ((client.status peer content).outcome before) := by
  refine answered_of_judge client peer
    (fun result => granted "status check" result
      >>= fun answer => understood "status check" Wire.tasks answer
      >>= fun tasks => .ok (Status.ofTasks tasks))
    (outcome_ask_then _ ?_ before) (fun _ => rfl) checked_table
  intro answer outside
  rw [Call.outcome_bind, outcome_purely]
  cases understood "status check" Wire.tasks answer <;> rfl

theorem upload_answered {σ : Type} (client : Client) (peer : Web.Peer) (graph path : String)
    {tree : Tree} {file : Bytes} (found : tree.read path = .ok file) (before : Outside σ)
    : Answered client peer "upload" .post ["extraction_graphs", graph, "extract"]
        (Form.ofFile path file) Uploaded before
        ((client.upload peer graph path tree).outcome before) := by
  unfold upload
  rw [Call.outcome_bind, outcome_purely, Document.content, found]
  refine answered_of_judge client peer
    (fun result => granted "upload" result
      >>= fun answer => understood "upload" Wire.content answer >>= named "upload")
    (outcome_ask_then _ ?_ before) (fun _ => rfl) uploaded_table
  intro answer outside
  rw [Call.outcome_bind, outcome_purely]
  cases understood "upload" Wire.content answer <;> rfl

/-- How it is told that a file cannot be read: the one that may not be read is forbidden, and any
other one counts as missing.
-/
inductive Unread (tree : Tree) (path : String) : Failure → Prop
  | forbidden {content : Bytes} (stands : tree.entryAt path = .ok (.sealed content))
    : Unread tree path (.inputForbidden path)
  | missing (others : ∀ content, tree.entryAt path ≠ .ok (.sealed content))
    : Unread tree path (.inputMissing path)

/-- A file that cannot be read is not sent, and nothing else is. -/
theorem upload_of_unreadable {σ : Type} (client : Client) (peer : Web.Peer) (graph path : String)
    {tree : Tree} {fault : PathFault} (lost : tree.read path = .error fault) (before : Outside σ)
    : ∃ failure, Unread tree path failure
        ∧ (client.upload peer graph path tree).outcome before = (.error failure, before) := by
  have ends : (client.upload peer graph path tree).outcome before
      = (.error (Document.unreadable path fault), before) := by
    unfold upload
    rw [Call.outcome_bind, outcome_purely, Document.content, lost]
    rfl
  refine ⟨_, ?_, ends⟩
  by_cases forbidden : fault = .forbidden
  · subst forbidden
    obtain ⟨content, stands⟩ := Tree.read_eq_forbidden_iff.mp lost
    exact .forbidden stands
  · have missing : Document.unreadable path fault = .inputMissing path := by
      cases fault <;> first | rfl | exact absurd rfl forbidden
    rw [missing]
    refine .missing fun content stands => forbidden ?_
    exact Except.error.inj (lost.symm.trans (Tree.read_eq_forbidden_iff.mpr ⟨content, stands⟩))

/-- An upload never returns a name without characters, whatever is answered. -/
theorem upload_ne_empty {σ : Type} (client : Client) (peer : Web.Peer) (graph path : String)
    (tree : Tree) (before : Outside σ)
    : ((client.upload peer graph path tree).outcome before).1 ≠ .ok "" := by
  cases found : tree.read path with
  | error fault =>
      obtain ⟨failure, _, ends⟩ := upload_of_unreadable client peer graph path found before
      rw [ends]
      nofun
  | ok file =>
      have answered := upload_answered client peer graph path found before
      generalize (client.upload peer graph path tree).outcome before = outcome at answered ⊢
      cases answered with
      | unusable | unanswered => nofun
      | answered _ _ _ means =>
          cases means with
          | named _ some => exact fun empty => some (Except.ok.inj empty)
          | nameless | failed => nofun

/-- Registrations, uploads and questions about a job ask once, and every answer has a row in the
table of the operation. For an upload the file is read before anything else: a file that cannot be
read is the failure, whatever the base is, and nobody is asked. No upload returns a name without
characters.
-/
theorem calls_ask_once {σ : Type} (client : Client) (peer : Web.Peer) (before : Outside σ)
    : (∀ graph,
        Answered client peer "graph creation" .post ["extraction_graphs"]
          (.json graph.toJson.compact) (Registered client graph) before
          ((client.create peer graph).outcome before))
      ∧ (∀ graph path tree file, Tree.read tree path = .ok file
          → Answered client peer "upload" .post ["extraction_graphs", graph, "extract"]
              (Form.ofFile path file) Uploaded before
              ((client.upload peer graph path tree).outcome before))
      ∧ (∀ graph path tree fault, Tree.read tree path = .error fault
          → ∃ failure, Unread tree path failure
              ∧ (client.upload peer graph path tree).outcome before = (.error failure, before))
      ∧ (∀ graph path tree, ((client.upload peer graph path tree).outcome before).1 ≠ .ok "")
      ∧ ∀ content,
          Answered client peer "status check" .get ["content", content, "tasks"] .nothing Checked
            before ((client.status peer content).outcome before) := by
  refine ⟨?_, ?_, ?_, ?_, ?_⟩
  · intro graph
    exact create_answered client peer graph before
  · intro graph path tree file found
    exact upload_answered client peer graph path found before
  · intro graph path tree fault lost
    exact upload_of_unreadable client peer graph path lost before
  · intro graph path tree
    exact upload_ne_empty client peer graph path tree before
  · intro content
    exact status_answered client peer content before

/-- A client whose base is no address. -/
def baseless : Client :=
  ⟨"not a url", "default", false⟩

theorem baseless_extends_nothing (base : Url) : ¬ baseless.Extends base := by
  intro reaches
  have parsed : Url.parse baseless.base = .error .relative := by decide +kernel
  cases parsed.symm.trans reaches.parsed

/-- A tree with one file that may be read, and one that may not. -/
def twoFiles : Tree :=
  ⟨[], [(["doc.pdf".toList], .file [1, 2, 3]), (["own.pdf".toList], .sealed [4])]⟩

/-- Without a usable base a file that can be read is not sent: the base is the failure, and nobody
is asked. The failure of a file that may not be read is that.
-/
theorem calls_ask_once_of_bad_base
    : let upload (path : String) :=
        (baseless.upload Web.unreachable "g" path twoFiles).outcome (⟨(), .none⟩ : Outside Unit)
      twoFiles.read "doc.pdf" = .ok [1, 2, 3]
      ∧ (∃ detail, upload "doc.pdf" = (.error (baseless.badBase detail), ⟨(), .none⟩))
      ∧ upload "own.pdf" = (.error (.inputForbidden "own.pdf"), ⟨(), .none⟩) := by
  intro upload
  have found : twoFiles.read "doc.pdf" = .ok [1, 2, 3] := by decide +kernel
  have refused : twoFiles.read "own.pdf" = .error .forbidden := by decide +kernel
  obtain ⟨_, uploads, fails, _⟩ :=
    calls_ask_once baseless Web.unreachable (⟨(), .none⟩ : Outside Unit)
  refine ⟨found, ?_, ?_⟩
  · have answered := uploads "g" "doc.pdf" twoFiles _ found
    change ∃ detail, (baseless.upload Web.unreachable "g" "doc.pdf" twoFiles).outcome _ = _
    generalize (baseless.upload Web.unreachable "g" "doc.pdf" twoFiles).outcome
      (⟨(), .none⟩ : Outside Unit) = outcome at answered ⊢
    cases answered with
    | unusable => exact ⟨_, rfl⟩
    | unanswered reaches | answered reaches => exact absurd reaches (baseless_extends_nothing _)
  · obtain ⟨failure, unread, ends⟩ := fails "g" "own.pdf" twoFiles _ refused
    cases unread with
    | forbidden => exact ends
    | missing others => exact absurd (by decide +kernel) (others [4])

/-- Where both the base is unusable and the file cannot be read, the file is the failure of an
upload, not the base.
-/
theorem upload_fails_on_file_before_base
    : let uploaded := (baseless.upload Web.unreachable "g" "missing.pdf" twoFiles).outcome
        (⟨(), .none⟩ : Outside Unit)
      (∀ base, ¬ baseless.Extends base)
      ∧ uploaded = (.error (.inputMissing "missing.pdf"), ⟨(), .none⟩)
      ∧ ∀ rule, uploaded.1 ≠ .error (.settingsRefused rule) := by
  intro uploaded
  have lost : twoFiles.read "missing.pdf" = .error .missing := by decide +kernel
  have ends : uploaded = (.error (.inputMissing "missing.pdf"), ⟨(), .none⟩) := by
    obtain ⟨failure, unread, ends⟩ :=
      upload_of_unreadable baseless Web.unreachable "g" "missing.pdf" lost
        (⟨(), .none⟩ : Outside Unit)
    cases unread with
    | missing => exact ends
    | forbidden stands =>
        have vacant : twoFiles.entryAt "missing.pdf" = .error .missing := by decide +kernel
        cases vacant.symm.trans stands
  refine ⟨baseless_extends_nothing, ends, ?_⟩
  rw [ends]
  nofun

end Client
end DocPipeline
