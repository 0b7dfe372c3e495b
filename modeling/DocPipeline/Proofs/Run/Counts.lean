import DocPipeline.Proofs.Artifact
import DocPipeline.Proofs.Document.Found
import DocPipeline.Proofs.Job.WaitLength
import DocPipeline.Proofs.Json.RoundTrip
import DocPipeline.Proofs.Run.AllOrNothing
import DocPipeline.Proofs.Service.Requests
import DocPipeline.Proofs.Web.Hops

/-! The counts of a delivery. What a run counts is what it met on its way: the bytes of its
document, the checks of its wait and the characters of its text. As long as no file and no answer is
larger than can be counted, all counts fit into their fields.
-/

namespace DocPipeline

-----------------------------------------------------------------------------------------
-- Sizes
-----------------------------------------------------------------------------------------

/-- No file of the tree is larger than can be counted. -/
def Tree.Sized (tree : Tree) : Prop :=
  ∀ place content, tree.lookup place = some (.file content) → content.length < 2 ^ 64

namespace Web

/-- No answer of the peer is larger than can be counted. -/
def Sized (peer : Peer) : Prop :=
  ∀ number answer, peer number = .answer answer → answer.body.length < 2 ^ 64

variable {peer : Peer} {request : Request} {hops : List Request} {before after : Traffic}
  {answer : Answer}

/-- What a request comes to is an answer of the peer; by induction on the hops. -/
theorem Hops.exists_reply (taken : Hops peer request before hops (.ok answer) after)
    : ∃ number, peer number = .answer answer := by
  generalize done : (Except.ok answer : Except Fault Answer) = result at taken
  induction taken with
  | answered reply =>
      obtain rfl := Except.ok.inj done
      exact ⟨_, reply⟩
  | redirected _ _ _ ih => exact ih done
  | _ => cases done

theorem Sized.send (sized : Sized peer) {method : Method} {url : Url} {payload : Payload}
    (sent : (send peer method url payload before).1 = .ok answer)
    : answer.body.length < 2 ^ 64 := by
  obtain ⟨hops, taken, _⟩ :=
    follow_hops peer followedRedirects (.to method url payload) before
  rw [Web.send] at sent
  rw [sent] at taken
  obtain ⟨number, reply⟩ := taken.exists_reply
  exact sized number answer reply

end Web

/-- A text has at most as many characters as bytes, since no character takes none. -/
theorem Text.Utf8.length_le_length_encode (text : String)
    : text.length ≤ (encode text).length := by
  have each (cs : List Char) : cs.length ≤ (cs.flatMap String.utf8EncodeChar).length := by
    induction cs with
    | nil => exact Nat.le_refl _
    | cons c cs ih =>
        have spoken := List.length_pos_iff.mpr (String.utf8EncodeChar_ne_nil (c := c))
        rw [List.flatMap_cons, List.length_append, List.length_cons]
        omega
  rw [← String.length_toList]
  exact each text.toList

/-- A document has at most the bytes that can be counted: it was a file, or it was an answer. -/
theorem Document.Found.sized {peer : Web.Peer} {workDir : Option String} {input : String}
    {tree : Tree} {traffic : Web.Traffic} {document : Document} {content : Bytes}
    (found : Found peer workDir input tree traffic document content) (files : tree.Sized)
    (answers : Web.Sized peer)
    : content.length < 2 ^ 64 ∧ document.downloadedBytes < 2 ^ 64 := by
  have given {body : Bytes} (given : Download.Gives peer input traffic body)
      : body.length < 2 ^ 64 := by
    obtain ⟨address, answer, _, sent, _, _, rfl⟩ := given
    exact answers.send sent
  cases found with
  | present _ reads => exact ⟨files _ _ (Tree.lookup_of_read reads), Nat.two_pow_pos 64⟩
  | kept _ gave => exact ⟨given gave, given gave⟩
  | temporary _ gave => exact ⟨given gave, given gave⟩

-----------------------------------------------------------------------------------------
-- Artifacts
-----------------------------------------------------------------------------------------

namespace Client

variable {σ : Type} {client : Client} {peer : Web.Peer}

theorem eq_ok_of_granted {operation : String} {result : Except Web.Fault Web.Answer}
    {answer : Web.Answer} (grants : granted operation result = .ok answer)
    : result = .ok answer := by
  cases result with
  | error fault => cases grants
  | ok other =>
      rw [granted] at grants
      split at grants
      · exact congrArg _ (Except.ok.inj grants)
      · cases grants

/-- The content of an artifact is the body of an answer. -/
theorem artifact_sized (answers : Web.Sized peer) {child : Wire.Child} {before after : Outside σ}
    {artifact : Artifact}
    (done : (client.artifact peer child).outcome before = (.ok artifact, after))
    : artifact.content.length < 2 ^ 64 := by
  obtain ⟨address, first, _, done⟩ := Call.exists_of_bind_eq_ok done
  obtain ⟨answer, second, asked, done⟩ := Call.exists_of_bind_eq_ok done
  obtain ⟨content, third, arrived, done⟩ := Call.exists_of_bind_eq_ok done
  obtain ⟨same, _⟩ := Prod.mk.inj done
  obtain rfl := Except.ok.inj same
  obtain ⟨granted, _⟩ := Prod.mk.inj asked
  obtain ⟨whole, _⟩ := Prod.mk.inj arrived
  have body : answer.wholeBody = .ok content := Except.mapError_eq_ok_iff.mp whole
  obtain ⟨_, rfl⟩ := Download.wholeBody_eq_ok_iff.mp body
  exact answers.send (eq_ok_of_granted granted)

/-- So is the content of every artifact that is fetched. -/
theorem fetch_sized (answers : Web.Sized peer) {content graph policy : String}
    {before after : Outside σ} {artifacts : List Artifact}
    (done : (client.fetch peer content graph policy).outcome before = (.ok artifacts, after))
    : ∀ artifact ∈ artifacts, artifact.content.length < 2 ^ 64 := by
  obtain ⟨address, first, _, done⟩ := Call.exists_of_bind_eq_ok done
  obtain ⟨answer, second, _, done⟩ := Call.exists_of_bind_eq_ok done
  obtain ⟨children, third, _, done⟩ := Call.exists_of_bind_eq_ok done
  exact Call.forall_of_mapM_eq_ok (fun _ _ _ _ => artifact_sized answers) done

end Client

-----------------------------------------------------------------------------------------
-- What a run counts
-----------------------------------------------------------------------------------------

/-- A wait that ends with a completed job has counted its checks. -/
theorem Wait.checks_lt_of_run {σ : Type} {clock : Clock} {schedule : Schedule} {content : String}
    {ask : σ → Except Failure Status × σ} {start : σ} {checks : Nat}
    (ends : (run clock schedule content ask none start).result = some (.ok checks))
    : checks < 2 ^ 32 := by
  cases representable : clock.reaches schedule.timeout with
  | false =>
      rw [run, representable] at ends
      cases ends
  | true =>
      rcases run_cases content representable with ⟨last, below, _, runs⟩ | ⟨_, runs⟩
      · rw [runs, endingAt] at ends
        have settles := Option.some.inj ends
        cases answer : answerTo ask start last with
        | error failure =>
            rw [answer] at settles
            cases settles
        | ok status =>
            rw [answer] at settles
            cases status with
            | completed => exact Except.ok.inj settles ▸ below
            | pending | failed => cases settles
      · rw [runs] at ends
        cases ends

namespace Run

variable {σ : Type} {plan : Plan σ} {policy : Policy} {document : Document} {input : String}
  {scene last : Scene σ} {delivery : Delivery}

/-- What a delivery counts, and where its text is from. -/
theorem process_counts
    (done : (process plan policy document).outcome scene = (.ok delivery, last))
    : ∃ size checks before after artifacts,
        document.size scene.tree = .ok size
        ∧ checks < 2 ^ 32
        ∧ (plan.service.fetch delivery.content plan.graph.name policy.name).outcome before
          = (.ok artifacts, after)
        ∧ Artifact.firstText delivery.content policy.name artifacts = .ok delivery.text
        ∧ delivery.tally
          = Tally.untimed document.downloadedBytes size checks delivery.text.length := by
  obtain ⟨size, first, measured, done⟩ := Phase.exists_of_bind_eq_ok done
  obtain ⟨_, second, _, done⟩ := Phase.exists_of_bind_eq_ok done
  obtain ⟨content, third, _, done⟩ := Phase.exists_of_bind_eq_ok done
  obtain ⟨checks, fourth, waited, done⟩ := Phase.exists_of_bind_eq_ok done
  obtain ⟨text, fifth, read, done⟩ := Phase.exists_of_bind_eq_ok done
  obtain ⟨_, sixth, _, done⟩ := Phase.exists_of_bind_eq_ok done
  obtain ⟨artifacts, seventh, fetched, read⟩ := Phase.exists_of_bind_eq_ok read
  obtain ⟨_, eighth, recorded, fetched⟩ := Phase.exists_of_bind_eq_ok fetched
  obtain ⟨same, _⟩ := Prod.mk.inj done
  obtain rfl := Except.ok.inj same
  obtain ⟨measured, _⟩ := Prod.mk.inj measured
  obtain ⟨decoded, _⟩ := Prod.mk.inj read
  obtain ⟨answered, _⟩ := Prod.mk.inj fetched
  obtain ⟨ended, _⟩ := Prod.mk.inj waited
  refine ⟨size, checks, eighth.outside, _, artifacts, measured, ?_, Prod.ext answered rfl, decoded,
    rfl⟩
  cases result : (Wait.run plan.clock plan.settings.schedule content
    (plan.service.status content).outcome none third.outside).result with
  | none =>
      rw [result] at ended
      cases ended
  | some outcome =>
      rw [result] at ended
      exact Wait.checks_lt_of_run (result.trans (congrArg some ended))

/-- A run that delivers has found its document and has done everything with it. -/
theorem exists_process_of_delivered
    (delivered : (deliver plan input).outcome scene = (.ok delivery, last))
    : ∃ policy document between later,
        (resolve plan input).outcome scene = (.ok document, between)
        ∧ (process plan policy document).outcome between = (.ok delivery, later) := by
  obtain ⟨policy, first, decided, begun⟩ := Phase.exists_of_bind_eq_ok delivered
  obtain ⟨_, rfl⟩ := Prod.mk.inj decided
  obtain ⟨document, between, resolved, released⟩ := Phase.exists_of_bind_eq_ok begun
  obtain ⟨done, _⟩ := Prod.mk.inj released
  exact ⟨policy, document, between, _, resolved, Prod.ext done rfl⟩

/-- The counts of a delivery fit into their fields: the document was a file or an answer, and the
text is in an answer.
-/
theorem deliver_inRange {client : Client} (served : plan.service = client.service plan.peer)
    (sound : scene.tree.Sound) (files : scene.tree.Sized) (answers : Web.Sized plan.peer)
    (delivered : (deliver plan input).outcome scene = (.ok delivery, last))
    : delivery.tally.InRange := by
  obtain ⟨policy, document, between, later, resolved, done⟩ :=
    exists_process_of_delivered delivered
  obtain ⟨size, checks, before, after, artifacts, measured, few, fetched, decoded, tally⟩ :=
    process_counts done
  have text : delivery.text.length < 2 ^ 64 := by
    obtain ⟨first, rest, rfl, encoded⟩ := Artifact.firstText_eq_ok_iff.mp decoded
    rw [served] at fetched
    have small := Client.fetch_sized answers fetched first List.mem_cons_self
    rw [encoded] at small
    exact Nat.lt_of_le_of_lt (Text.Utf8.length_le_length_encode _) small
  have whole : size < 2 ^ 64 ∧ document.downloadedBytes < 2 ^ 64 := by
    rcases goes : Document.resolve plan.peer plan.settings.downloadSeconds.toNat
      plan.settings.workDir input scene.tree scene.outside.traffic with ⟨result, tree, traffic⟩
    rw [resolve_outcome plan input scene goes] at resolved
    obtain ⟨rfl, rfl⟩ := Prod.mk.inj resolved
    obtain ⟨content, found, reads⟩ := Document.found_of_resolve sound goes
    rw [Document.size_of_read reads] at measured
    obtain rfl := Except.ok.inj measured
    exact found.sized files answers
  rw [tally]
  have none : 0 < 2 ^ 64 := Nat.two_pow_pos 64
  exact ⟨whole.2, whole.1, few, text, none, none, none, none, none⟩

end Run
end DocPipeline
