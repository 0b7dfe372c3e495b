import DocPipeline.Proofs.Document.Found
import DocPipeline.Proofs.Run.Alike
import DocPipeline.Proofs.Run.AllOrNothing
import DocPipeline.Proofs.Service.Address
import DocPipeline.Proofs.Service.Form
import DocPipeline.Proofs.Service.Requests

/-! What a run sends. A run that delivers a text has sent the bytes of its document in one form,
and no other form but for redirects of that one; and it has told their number to whoever listens.
-/

namespace DocPipeline

variable {σ : Type}

-----------------------------------------------------------------------------------------
-- Turns
-----------------------------------------------------------------------------------------

namespace Turn

/-- The turn sends a file to the service. -/
def Uploads : Turn → Prop
  | exchanged (.upload ..) => True
  | _ => False

theorem mem_report {listener : Option Listener} {event : Event} {turn : Turn}
    : turn ∈ report listener event ↔ ∃ who, listener = some who ∧ turn = .reported who event := by
  cases listener <;> simp [report]

/-- A report is on record if it was made. -/
theorem reported_mem_map_moment {who : Listener} {event : Event} {turns : List Turn}
    : .reported who event ∈ turns.map moment ↔ .reported who event ∈ turns := by
  constructor
  · intro member
    obtain ⟨turn, there, same⟩ := List.mem_map.mp member
    cases turn with
    | exchanged => cases same
    | reported listener other =>
        obtain ⟨rfl, rfl⟩ := Moment.reported.inj same
        exact there
  · exact fun member => List.mem_map.mpr ⟨_, member, rfl⟩

/-- Checks are asked for and reported, by induction on their answers. -/
theorem of_mem_ofAnswers {listener : Option Listener} {content : String} {number : Nat}
    {answers : List (Except Failure Status)} {turn : Turn}
    (member : turn ∈ ofAnswers listener content number answers)
    : (∃ answer, turn = .exchanged (.status content answer))
      ∨ ∃ who number status, turn = .reported who (.checked number status) := by
  induction answers generalizing number with
  | nil => cases member
  | cons answer answers ih =>
      simp only [ofAnswers, ofCheck, List.cons_append, List.mem_cons, List.mem_append] at member
      rcases member with asked | told | later
      · exact .inl ⟨answer, asked⟩
      · cases answer with
        | error failure => cases told
        | ok status =>
            obtain ⟨who, _, rfl⟩ := mem_report.mp told
            exact .inr ⟨who, number, status, rfl⟩
      · exact ih later

theorem inputReady_notMem_ofAnswers {listener : Option Listener} {who : Listener}
    {content : String} {number bytes : Nat} {answers : List (Except Failure Status)}
    : reported who (.inputReady bytes) ∉ ofAnswers listener content number answers := by
  intro member
  rcases of_mem_ofAnswers member with ⟨_, other⟩ | ⟨_, _, _, other⟩ <;> cases other

/-- Turns that happen one after the other can be parted anywhere, by induction on the first ones. -/
theorem Happen.split {service : Service σ} {tree : Tree} {before after : Outside σ}
    {first second : List Turn} (happen : Happen service tree before (first ++ second) after)
    : ∃ between, Happen service tree before first between
        ∧ Happen service tree between second after := by
  induction first generalizing before with
  | nil => exact ⟨before, .nil before, happen⟩
  | cons turn turns ih =>
      cases happen with
      | cons head rest =>
          obtain ⟨between, front, back⟩ := ih rest
          exact ⟨between, .cons head front, back⟩

/-- A turn that sends no file sends no form, by cases on what is asked. -/
theorem Happens.grows_formless {client : Client} {peer : Web.Peer} {tree : Tree}
    {before after : Outside σ} {turn : Turn}
    (happens : Happens (client.service peer) tree before after turn) (other : ¬ turn.Uploads)
    : before.traffic.Grows Web.Request.IsFormless after.traffic := by
  have sends {α : Type} {call : Call σ α} {answer : Except Failure α}
      (formless : call.Sends Web.Request.IsFormless)
      (called : call.outcome before = (answer, after))
      : before.traffic.Grows Web.Request.IsFormless after.traffic := by
    have grows := formless before
    rwa [called] at grows
  cases turn with
  | reported => exact happens ▸ .refl _ _
  | exchanged exchange =>
      cases exchange with
      | create graph => exact sends (client.create_sends_formless peer graph) happens
      | upload => exact absurd trivial other
      | status content => exact sends (client.status_sends_formless peer content) happens
      | fetch content graph policy =>
          exact sends (client.fetch_sends_formless peer content graph policy) happens

theorem Happen.grows_formless {client : Client} {peer : Web.Peer} {tree : Tree}
    {before after : Outside σ} {turns : List Turn}
    (happen : Happen (client.service peer) tree before turns after)
    (others : ∀ turn ∈ turns, ¬ turn.Uploads)
    : before.traffic.Grows Web.Request.IsFormless after.traffic := by
  induction happen with
  | nil => exact .refl _ _
  | cons first _ ih =>
      rw [List.forall_mem_cons] at others
      exact (first.grows_formless others.1).trans (ih others.2)

end Turn

-----------------------------------------------------------------------------------------
-- Documents
-----------------------------------------------------------------------------------------

theorem Download.toFile_grows_formless (peer : Web.Peer) (seconds : Nat) (url path : String)
    (tree : Tree) (traffic : Web.Traffic)
    : traffic.Grows Web.Request.IsFormless
        (toFile peer seconds url path tree traffic).2.2 := by
  have fetches : traffic.Grows Web.Request.IsFormless (fetch peer seconds url traffic).2 := by
    unfold fetch
    cases Url.parse url with
    | error fault => exact .refl _ _
    | ok address =>
        have sends := Web.send_grows peer .get address .nothing traffic
          fun _ trail => trail.isFormless nofun
        rcases sent : Web.send peer .get address .nothing traffic with ⟨result, later⟩
        rw [sent] at sends
        dsimp only
        rw [sent]
        cases result with
        | error fault => exact sends
        | ok answer =>
            dsimp only
            split <;> exact sends
  unfold toFile
  rcases fetched : fetch peer seconds url traffic with ⟨result, later⟩
  rw [fetched] at fetches
  cases result <;> exact fetches

/-- Getting a document sends no form. -/
theorem Document.resolve_grows_formless (peer : Web.Peer) (seconds : Nat)
    (workDir : Option String) (input : String) (tree : Tree) (traffic : Web.Traffic)
    : traffic.Grows Web.Request.IsFormless
        (resolve peer seconds workDir input tree traffic).2.2 := by
  unfold resolve
  split
  · unfold atAddress
    cases workDir with
    | some directory => exact Download.toFile_grows_formless ..
    | none =>
        have fetched := Download.toFile_grows_formless peer seconds input
          (temporaryPath (tree.freshLocation []) (Url.fileName input))
          (tree.put (tree.freshLocation []) .directory) traffic
        dsimp only
        split <;> simp_all
  · exact .refl _ _

-----------------------------------------------------------------------------------------
-- Whole runs
-----------------------------------------------------------------------------------------

namespace Run

/-- A course that delivers a text sends its document in one turn, and tells its size before that. -/
theorem Course.upload_of_ok {plan : Plan σ} {policy : Policy} {document : Document} {size : Nat}
    {turns : List Turn} {delivery : Delivery}
    (course : Course plan policy document size turns (.ok delivery))
    : ∃ front back content,
        turns = front
          ++ .exchanged (.upload plan.graph.name document.path (.ok content)) :: back
        ∧ (∀ turn ∈ front ++ back, ¬ turn.Uploads)
        ∧ (∀ who bytes, Turn.reported who (.inputReady bytes) ∈ turns
            ↔ plan.settings.listener = some who ∧ bytes = size)
        ∧ delivery.tally.uploadedBytes = size
        ∧ delivery.tally.downloadedBytes = document.downloadedBytes := by
  cases course with
  | @delivered sent content answers checks fetch text submission ending retrieval =>
      have fetches : ∃ answer, fetch = .fetch content plan.graph.name policy.name answer := by
        cases retrieval with
        | fetched => exact ⟨_, rfl⟩
      obtain ⟨answer, rfl⟩ := fetches
      have sends := submission.exchanges_of_ok
      refine ⟨Turn.report plan.settings.listener (.inputReady size)
          ++ (registration plan (.ok ())).map .exchanged,
        Turn.report plan.settings.listener (.submitted content)
          ++ Turn.ofAnswers plan.settings.listener content 1 answers
          ++ [.exchanged (.fetch content plan.graph.name policy.name answer)]
          ++ Turn.report plan.settings.listener (.complete text.length),
        content, ?_, ?_, ?_, rfl, rfl⟩
      · simp [opening, sends]
      · intro turn member
        simp only [List.mem_append, List.mem_map, mem_registration, List.mem_singleton,
          Turn.mem_report] at member
        rcases member with
          (⟨_, _, rfl⟩ | ⟨_, ⟨_, rfl⟩, rfl⟩) | ((⟨_, _, rfl⟩ | checks) | rfl) | ⟨_, _, rfl⟩
        case inr.inl.inl.inr =>
          rcases Turn.of_mem_ofAnswers checks with ⟨_, rfl⟩ | ⟨_, _, _, rfl⟩ <;> exact id
        all_goals exact id
      · intro who bytes
        simp [opening, sends, Turn.mem_report, Turn.inputReady_notMem_ofAnswers]

/-- A run that delivers a text has found its document and has run a course with it. -/
theorem exists_course_of_delivered {plan : Plan σ} {input : String} {scene last : Scene σ}
    {delivery : Delivery} (delivered : (deliver plan input).outcome scene = (.ok delivery, last))
    : ∃ policy document size turns between,
        (resolve plan input).outcome scene = (.ok document, between)
        ∧ document.size between.tree = .ok size
        ∧ Course plan policy document size turns (.ok delivery)
        ∧ Turn.Happen plan.service between.tree between.outside turns last.outside
        ∧ last.moments = between.moments ++ turns.map Turn.moment
        ∧ last.tree = document.release between.tree := by
  cases found : outputPolicy plan.graph with
  | error failure =>
      have ends : (deliver plan input).outcome scene = (.error failure, scene) :=
        Phase.outcome_bind_error (by rw [Phase.outcome_purely, found])
      rw [ends] at delivered
      cases delivered
  | ok policy =>
      rw [deliver_outcome_of_policy input scene found] at delivered
      rcases resolved : (resolve plan input).outcome scene with ⟨result, between⟩
      cases result with
      | error failure =>
          rw [Phase.outcome_bind_error resolved] at delivered
          cases delivered
      | ok document =>
          rw [Phase.outcome_bind_ok resolved] at delivered
          have goes : (releasing document (process plan policy document)).outcome between
              = (((process plan policy document).outcome between).1,
                { ((process plan policy document).outcome between).2 with
                  tree := document.release ((process plan policy document).outcome between).2.tree })
              := rfl
          rw [goes] at delivered
          cases measured : document.size between.tree with
          | error failure =>
              rw [process_outcome_of_unmeasured measured] at delivered
              cases delivered
          | ok size =>
              obtain ⟨turns, ended, after, course, transcribed⟩ :=
                process_transcribed plan policy document size between measured
              rw [transcribed.outcome] at delivered
              obtain ⟨rfl, rfl⟩ := Prod.mk.inj delivered
              exact ⟨policy, document, size, turns, between, rfl, measured, course,
                transcribed.happen, transcribed.recorded, congrArg document.release transcribed.tree⟩

/-- A run that delivers a text has sent its document byte for byte. Among the requests that were
taken since it began there is one with a form, and no other has one but redirects that repeat it.
The form has one part, whose head tells that it is the file, the name and the type. For an address
the file is named after it and holds the whole body that its peer gave, and the file in a work
directory holds the same; for a path it holds what can be read there, and the tree is as it was.
Either way that is the number of bytes that the run tells and counts, and the type follows from the
name.
-/
theorem deliver_sends_document {client : Client} {settings : Settings} {peer : Web.Peer}
    {clock : Clock} {graph : Graph} {input : String} {scene last : Scene σ} {delivery : Delivery}
    (sound : scene.tree.Sound)
    (delivered : (deliver (client.plan settings peer clock graph) input).outcome scene
      = (.ok delivery, last))
    : ∃ name type content address before after told,
        client.address ["extraction_graphs", graph.name, "extract"] = .ok address
        ∧ last.outside.traffic.taken
          = scene.outside.traffic.taken ++ before
            ++ .to .post address (.form (Form.head name type) content) :: after
        ∧ (∀ request ∈ before, request.IsFormless)
        ∧ (∀ request ∈ after,
            request.payload = .form (Form.head name type) content ∨ request.IsFormless)
        ∧ Form.Part.ofHead? (Form.head name type) = some ⟨"file", name, type⟩
        ∧ (Url.isWebAddress input = true
            → name = Url.fileName input
              ∧ Download.Gives peer input scene.outside.traffic content
              ∧ delivery.tally.downloadedBytes = content.length
              ∧ ∀ directory, settings.workDir = some directory
                → last.tree.read (Path.join directory name) = .ok content)
        ∧ (Url.isWebAddress input = false
            → name = Form.fileName input
              ∧ scene.tree.read input = .ok content
              ∧ delivery.tally.downloadedBytes = 0
              ∧ last.tree = scene.tree)
        ∧ delivery.tally.uploadedBytes = content.length
        ∧ last.moments = scene.moments ++ told
        ∧ (∀ who bytes, .reported who (.inputReady bytes) ∈ told
            ↔ settings.listener = some who ∧ bytes = content.length)
        ∧ (type = "application/pdf" ↔ Path.HasExtension name.toList "pdf".toList)
        ∧ (type = "text/plain" ↔ Path.HasExtension name.toList "txt".toList)
        ∧ (type = "application/octet-stream"
            ↔ ¬ Path.HasExtension name.toList "pdf".toList
              ∧ ¬ Path.HasExtension name.toList "txt".toList) := by
  obtain ⟨policy, document, size, turns, between, resolved, measured, course, happen, recorded,
    released⟩ := exists_course_of_delivered delivered
  rcases found : Document.resolve peer settings.downloadSeconds.toNat settings.workDir input
    scene.tree scene.outside.traffic with ⟨result, after, traffic⟩
  have ends := resolve_outcome (client.plan settings peer clock graph) input scene found
  obtain ⟨sameDocument, rfl⟩ := Prod.mk.inj (resolved.symm.trans ends)
  subst sameDocument
  obtain ⟨content, how, reads⟩ := Document.found_of_resolve sound found
  obtain rfl : content.length = size :=
    Except.ok.inj ((Document.size_of_read reads).symm.trans measured)
  obtain ⟨front, back, taken, rfl, others, told, uploaded, downloaded⟩ := course.upload_of_ok
  rw [List.forall_mem_append] at others
  obtain ⟨first, begun, rest⟩ := happen.split
  cases rest with
  | @cons _ second _ _ _ uploads rest =>
  obtain ⟨body, address, more, opened, built, sent, trail⟩ := client.upload_granted peer uploads
  obtain rfl : content = body := Except.ok.inj (reads.symm.trans opened)
  have fetched := Document.resolve_grows_formless peer settings.downloadSeconds.toNat
    settings.workDir input scene.tree scene.outside.traffic
  rw [found] at fetched
  obtain ⟨before, earlier, plain⟩ := fetched.trans (begun.grows_formless others.1)
  obtain ⟨behind, later, plainToo⟩ := rest.grows_formless others.2
  refine ⟨Form.fileName document.path, Form.mimeType document.path, content, address, before,
    more ++ behind, _, built, ?_, plain, ?_, Form.Part.ofHead?_head _ _, ?_, ?_, uploaded, recorded,
    ?_, Form.mimeType_iff document.path⟩
  · rw [later, sent, earlier, List.append_assoc]
    rfl
  · intro request member
    rcases List.mem_append.mp member with repeated | other
    · rcases trail.payload request (List.mem_cons_of_mem _ repeated) with same | dropped
      · exact .inl same
      · exact .inr fun head content form => by
          rw [dropped] at form
          cases form
    · exact .inr (plainToo request other)
  · intro web
    obtain ⟨given, counted⟩ := how.given web
    have named : Form.fileName document.path = Url.fileName input := by
      rw [Form.fileName, how.fileName_eq web, Option.map_some, String.ofList_toList,
        Option.getD_some]
    refine ⟨named, given, downloaded.trans counted, ?_⟩
    intro directory keeps
    rw [released, how.release_eq (by simp [keeps]), named, ← how.path_eq_join web keeps]
    exact reads
  · intro path
    obtain ⟨rfl, opens⟩ := how.eq_present path
    refine ⟨rfl, opens, downloaded, ?_⟩
    rw [Document.resolve, if_neg (by simp [path])] at found
    have unchanged : scene.tree = after := (Prod.mk.inj (Prod.mk.inj found).2).1
    rw [unchanged]
    exact released
  · intro who bytes
    rw [Turn.reported_mem_map_moment]
    exact told who bytes

/-- A server that has a document of two bytes, takes it, and says that its text is short. -/
def lendingPeer : Web.Peer := fun number =>
  let bodies :=
    [[0xFF, 0xFE], Text.Utf8.encode "\x7b\"content_id\": \"c\"\x7d",
      Text.Utf8.encode "\x7b\"tasks\": [\x7b\"id\": \"t\", \"outcome\": \"Success\"\x7d]\x7d",
      Text.Utf8.encode
        "\x7b\"content_tree_metadata\": [\x7b\"id\": \"a\", \"source\": \"p\"\x7d]\x7d",
      Text.Utf8.encode "Hi"]
  .answer ⟨200, [], bodies.getD number [], .whole⟩

/-- A run over that server, which keeps the document and tells how it goes. -/
def lendingPlan : Plan Unit :=
  (Client.mk "http://h" "s" false).plan
    { Settings.standard with workDir := some "in", createGraph := false, listener := some ⟨0⟩ }
    lendingPeer (.exact (2 ^ 80)) ⟨"g", none, [⟨"x", "p", ⟨"m", "k", "i"⟩, none⟩]⟩

/-- Nothing has happened yet in a tree of one file. -/
def untouched : Scene Unit :=
  ⟨oneDocument.tree, ⟨(), .none⟩, []⟩

theorem parse_lent : Url.parse "http://h/a.PDF" = .ok
    ⟨"http".toList, [], [], some "h".toList, none, .segments ["a.PDF".toList], none, none⟩ := by
  decide +kernel

theorem fileName_lent : Url.fileName "http://h/a.PDF" = "a.PDF" := by
  decide +kernel

/-- The run delivers a text. -/
theorem lendingPlan_delivers
    : ((deliver lendingPlan "http://h/a.PDF").outcome untouched).1.toOption.isSome = true := by
  decide +kernel

/-- A document of two bytes that are no text is sent as it is, under the name of its address. -/
theorem deliver_sends_document_of_two_bytes
    : ∃ delivery last before address after,
        (deliver lendingPlan "http://h/a.PDF").outcome untouched = (.ok delivery, last)
        ∧ last.outside.traffic.taken
          = before
            ++ .to .post address
              (.form
                (Text.Utf8.encode ("Content-Disposition: form-data; name=\"file\"; "
                  ++ "filename=\"a.PDF\"\r\nContent-Type: application/pdf"))
                [0xFF, 0xFE])
              :: after
        ∧ last.tree.read "in/a.PDF" = .ok [0xFF, 0xFE]
        ∧ delivery.tally.uploadedBytes = 2
        ∧ .reported ⟨0⟩ (.inputReady 2) ∈ last.moments := by
  have delivers := lendingPlan_delivers
  rcases outcome : (deliver lendingPlan "http://h/a.PDF").outcome untouched with ⟨result, last⟩
  rw [outcome] at delivers
  cases result with
  | error failure => cases delivers
  | ok delivery =>
      have sound : untouched.tree.Sound := oneDocument_sound
      obtain ⟨name, type, content, address, before, after, told, _, sent, _, _, _, web, _, counted,
        record, heard, pdf, _⟩ := deliver_sends_document sound outcome
      obtain ⟨rfl, given, _, kept⟩ := web (by decide +kernel)
      have body : (Download.fetch lendingPeer 0 "http://h/a.PDF" .none).1 = .ok [0xFF, 0xFE] := by
        unfold Download.fetch
        simp only [parse_lent]
        decide +kernel
      have same : (Download.fetch lendingPeer 0 "http://h/a.PDF" .none).1 = .ok content :=
        Download.fetch_eq_ok_iff.mpr given
      obtain rfl : [0xFF, 0xFE] = content := Except.ok.inj (body.symm.trans same)
      obtain rfl : type = "application/pdf" := by
        rw [pdf, fileName_lent]
        exact ⟨['a'], "PDF".toList, by simp, rfl, by decide⟩
      have head : Form.head "a.PDF" "application/pdf"
          = Text.Utf8.encode ("Content-Disposition: form-data; name=\"file\"; "
            ++ "filename=\"a.PDF\"\r\nContent-Type: application/pdf") := by
        decide +kernel
      rw [fileName_lent] at sent kept
      rw [head] at sent
      refine ⟨delivery, last, _, address, after, rfl, sent, kept "in" rfl, counted, ?_⟩
      rw [record]
      exact List.mem_append_right _ ((heard ⟨0⟩ 2).mpr ⟨rfl, rfl⟩)

end Run
end DocPipeline
