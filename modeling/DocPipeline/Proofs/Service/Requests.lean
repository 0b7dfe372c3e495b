import DocPipeline.Proofs.Except
import DocPipeline.Proofs.Web.Trail
import DocPipeline.Service.Client

/-! What calls send. Only an upload sends a form, and one that is granted has begun with the form of
the whole file.
-/

namespace DocPipeline

variable {σ α β : Type} {Kind : Web.Request → Prop}

namespace Call

/-- A call moves the traffic from what it was to something so related, whatever comes of it. -/
def Moves (Step : Web.Traffic → Web.Traffic → Prop) (call : Call σ α) : Prop :=
  ∀ outside : Outside σ, Step outside.traffic (call.outcome outside).2.traffic

/-- All requests of a call are of a kind, whatever comes of it. -/
def Sends (Kind : Web.Request → Prop) (call : Call σ α) : Prop :=
  ∀ outside : Outside σ, outside.traffic.Grows Kind (call.outcome outside).2.traffic

/-- A call and what follows it, by the result of the call. -/
theorem outcome_bind (call : Call σ α) (next : α → Call σ β) (outside : Outside σ)
    : (call >>= next : Call σ β).outcome outside
      = match call.outcome outside with
        | (.ok value, after) => (next value).outcome after
        | (.error failure, after) => (.error failure, after) := by
  change (ExceptT.bindCont next (call.outcome outside).1 : StateM (Outside σ) _)
    (call.outcome outside).2 = _
  rcases call.outcome outside with ⟨result, after⟩
  cases result <;> rfl

/-- What follows a call comes about only after the call did. -/
theorem exists_of_bind_eq_ok {call : Call σ α} {next : α → Call σ β} {before after : Outside σ}
    {value : β} (done : (call >>= next : Call σ β).outcome before = (.ok value, after))
    : ∃ first between, call.outcome before = (.ok first, between)
        ∧ (next first).outcome between = (.ok value, after) := by
  rw [outcome_bind] at done
  rcases called : call.outcome before with ⟨result, between⟩
  rw [called] at done
  cases result with
  | error failure => cases done
  | ok first => exact ⟨first, between, rfl, done⟩

/-- What is true of whatever a call returns is true of everything that it returns for a list; by
induction on the list.
-/
theorem forall_of_mapM_eq_ok {call : α → Call σ β} {Returned : β → Prop}
    (each : ∀ value before result after, (call value).outcome before = (.ok result, after)
      → Returned result)
    {values : List α} {before after : Outside σ} {results : List β}
    (done : (values.mapM call).outcome before = (.ok results, after))
    : ∀ result ∈ results, Returned result := by
  induction values generalizing before after results with
  | nil =>
      obtain ⟨same, _⟩ := Prod.mk.inj done
      obtain rfl := Except.ok.inj same
      exact nofun
  | cons value rest ih =>
      rw [List.mapM_cons] at done
      obtain ⟨first, second, here, done⟩ := exists_of_bind_eq_ok done
      obtain ⟨others, third, further, done⟩ := exists_of_bind_eq_ok done
      obtain ⟨same, _⟩ := Prod.mk.inj done
      obtain rfl := Except.ok.inj same
      intro result member
      rcases List.mem_cons.mp member with rfl | member
      · exact each value before result second here
      · exact ih further result member

/-- Such moves after each other are one of them, and so is none at all. -/
structure Composes (Step : Web.Traffic → Web.Traffic → Prop) : Prop where
  none : ∀ traffic, Step traffic traffic
  append : ∀ {before between after}, Step before between → Step between after → Step before after

theorem composes_grows (Kind : Web.Request → Prop) : Composes (Web.Traffic.Grows Kind) :=
  ⟨.refl Kind, .trans⟩

namespace Moves

variable {Step : Web.Traffic → Web.Traffic → Prop} (composes : Composes Step)

include composes

theorem purely (result : Except Failure α) : Moves Step (Client.purely result : Call σ α) :=
  fun outside => composes.none outside.traffic

/-- Calls one after the other, by cases on the result of the first one. -/
theorem bind {call : Call σ α} {next : α → Call σ β} (first : Moves Step call)
    (rest : ∀ value, Moves Step (next value)) : Moves Step (call >>= next : Call σ β) := by
  intro outside
  have before := first outside
  rw [outcome_bind]
  rcases called : call.outcome outside with ⟨result, between⟩
  rw [called] at before
  cases result with
  | error failure => exact before
  | ok value => exact composes.append before (rest value between)

/-- What follows a decision has only to move so where the decision lets it. -/
theorem purely_bind {result : Except Failure α} {next : α → Call σ β}
    (rest : ∀ value, result = .ok value → Moves Step (next value))
    : Moves Step (Client.purely result >>= next : Call σ β) := by
  cases result with
  | error failure => exact purely composes (.error failure)
  | ok value => exact rest value rfl

/-- A call for every value of a list, by induction on the list. -/
theorem mapM {call : α → Call σ β} (each : ∀ value, Moves Step (call value)) (values : List α)
    : Moves Step (values.mapM call) := by
  induction values with
  | nil => exact purely composes (.ok [])
  | cons value rest ih =>
      rw [List.mapM_cons]
      exact bind composes (each value) fun _ => bind composes ih fun _ => purely composes (.ok _)

end Moves

end Call

namespace Client

theorem outcome_purely (result : Except Failure α) (before : Outside σ)
    : (purely result : Call σ α).outcome before = (result, before) :=
  rfl

/-- A client asks by sending one request, which leaves the service itself alone. -/
theorem outcome_ask {peer : Web.Peer} {service : σ} {start last : Web.Traffic}
    {operation : String} {method : Web.Method} {url : Url} {payload : Web.Payload}
    {result : Except Web.Fault Web.Answer}
    (sent : Web.send peer method url payload start = (result, last))
    : (ask peer operation method url payload : Call σ Web.Answer).outcome ⟨service, start⟩
      = (granted operation result, ⟨service, last⟩) := by
  change (granted operation (Web.send peer method url payload start).1,
    (⟨service, (Web.send peer method url payload start).2⟩ : Outside σ)) = _
  rw [sent]

variable (client : Client) (peer : Web.Peer)

-----------------------------------------------------------------------------------------
-- How calls move the traffic
-----------------------------------------------------------------------------------------

section Moves

variable {Step : Web.Traffic → Web.Traffic → Prop} (composes : Call.Composes Step)

include composes

/-- A registration moves the traffic as its one question does. -/
theorem create_moves (graph : Graph)
    (asks : ∀ url, client.address ["extraction_graphs"] = .ok url
      → Call.Moves Step (ask peer "graph creation" .post url (.json graph.toJson.compact)
          : Call σ Web.Answer))
    : Call.Moves Step (client.create peer graph : Call σ Unit) := by
  refine .purely_bind composes fun url found => ?_
  exact .bind composes (asks url found) fun _ => .purely composes _

/-- An upload moves the traffic as its one question does, which is asked only if there is a file. -/
theorem upload_moves (graph path : String) (tree : Tree)
    (asks : ∀ content url, client.address ["extraction_graphs", graph, "extract"] = .ok url
      → Call.Moves Step (ask peer "upload" .post url (Form.ofFile path content)
          : Call σ Web.Answer))
    : Call.Moves Step (client.upload peer graph path tree : Call σ String) := by
  refine .purely_bind composes fun content _ => ?_
  refine .purely_bind composes fun url found => ?_
  refine .bind composes (asks content url found) fun _ => ?_
  exact .bind composes (.purely composes _) fun _ => .purely composes _

/-- A question about a job moves the traffic as asking it does. -/
theorem status_moves (content : String)
    (asks : ∀ url, client.address ["content", content, "tasks"] = .ok url
      → Call.Moves Step (ask peer "status check" .get url .nothing : Call σ Web.Answer))
    : Call.Moves Step (client.status peer content : Call σ Status) := by
  refine .purely_bind composes fun url found => ?_
  refine .bind composes (asks url found) fun _ => ?_
  exact .bind composes (.purely composes _) fun _ => .purely composes (.ok _)

/-- The download of a child moves the traffic as asking for it does. -/
theorem artifact_moves (child : Wire.Child)
    (asks : ∀ url, client.address ["content", child.id, "download"] = .ok url
      → Call.Moves Step (ask peer "artifact download" .get url .nothing : Call σ Web.Answer))
    : Call.Moves Step (client.artifact peer child : Call σ Artifact) := by
  refine .purely_bind composes fun url found => ?_
  refine .bind composes (asks url found) fun _ => ?_
  exact .bind composes (.purely composes _) fun _ => .purely composes (.ok _)

/-- Fetching moves the traffic as asking for the list does and then asking for its children. -/
theorem fetch_moves (content graph policy : String)
    (lists : ∀ url,
      client.address
          ["extraction_graphs", graph, "extraction_policies", policy, "content", content] = .ok url
      → Call.Moves Step (ask peer "artifact listing" .get url .nothing : Call σ Web.Answer))
    (downloads : ∀ child, Call.Moves Step (client.artifact peer child : Call σ Artifact))
    : Call.Moves Step (client.fetch peer content graph policy : Call σ (List Artifact)) := by
  refine .purely_bind composes fun url found => ?_
  refine .bind composes (lists url found) fun _ => ?_
  exact .bind composes (.purely composes _) fun _ => .mapM composes downloads _

end Moves

-----------------------------------------------------------------------------------------
-- Calls without forms
-----------------------------------------------------------------------------------------

theorem ask_sends_formless (operation : String) (method : Web.Method) (url : Url)
    (payload : Web.Payload) (formless : ∀ head content, payload ≠ .form head content)
    : Call.Sends Web.Request.IsFormless
        (ask peer operation method url payload : Call σ Web.Answer) :=
  fun outside => Web.send_grows peer method url payload outside.traffic
    fun _ trail => trail.isFormless formless

theorem create_sends_formless (graph : Graph)
    : Call.Sends Web.Request.IsFormless (client.create peer graph : Call σ Unit) :=
  create_moves client peer (Call.composes_grows _) graph fun url _ =>
    ask_sends_formless peer "graph creation" .post url _ nofun

theorem status_sends_formless (content : String)
    : Call.Sends Web.Request.IsFormless (client.status peer content : Call σ Status) :=
  status_moves client peer (Call.composes_grows _) content fun url _ =>
    ask_sends_formless peer "status check" .get url .nothing nofun

theorem artifact_sends_formless (child : Wire.Child)
    : Call.Sends Web.Request.IsFormless (client.artifact peer child : Call σ Artifact) :=
  artifact_moves client peer (Call.composes_grows _) child fun url _ =>
    ask_sends_formless peer "artifact download" .get url .nothing nofun

theorem fetch_sends_formless (content graph policy : String)
    : Call.Sends Web.Request.IsFormless
        (client.fetch peer content graph policy : Call σ (List Artifact)) :=
  fetch_moves client peer (Call.composes_grows _) content graph policy
    (fun url _ => ask_sends_formless peer "artifact listing" .get url .nothing nofun)
    (artifact_sends_formless client peer)

-----------------------------------------------------------------------------------------
-- What was granted
-----------------------------------------------------------------------------------------

/-- A request that is granted was taken, and so were those that redirects made of it. -/
theorem ask_granted {operation : String} {method : Web.Method} {url : Url}
    {payload : Web.Payload} {before after : Outside σ} {answer : Web.Answer}
    (granted : (ask peer operation method url payload).outcome before = (.ok answer, after))
    : ∃ more, after.traffic.taken = before.traffic.taken ++ .to method url payload :: more
        ∧ Web.Trail (.to method url payload) (.to method url payload :: more) := by
  obtain ⟨sent, taken, trail, answered⟩ := Web.follow_trail peer Web.followedRedirects
    (.to method url payload) before.traffic
  rcases sending : Web.send peer method url payload before.traffic with ⟨result, traffic⟩
  rw [← Web.send, sending] at taken answered
  have goes : (ask peer operation method url payload).outcome before
      = (Client.granted operation result, { before with traffic := traffic }) :=
    outcome_ask sending
  rw [goes] at granted
  obtain ⟨result', rfl⟩ := Prod.mk.inj granted
  cases result with
  | error fault => cases result'
  | ok answer =>
      obtain ⟨more, rfl⟩ := trail.exists_cons (answered answer rfl)
      exact ⟨more, taken, trail⟩

/-- The upload of a file begins with the form of the bytes that can be read there. -/
theorem upload_granted {graph path name : String} {tree : Tree} {before after : Outside σ}
    (granted : (client.upload peer graph path tree).outcome before = (.ok name, after))
    : ∃ content address more,
        tree.read path = .ok content
        ∧ client.address ["extraction_graphs", graph, "extract"] = .ok address
        ∧ after.traffic.taken
          = before.traffic.taken ++ .to .post address (Form.ofFile path content) :: more
        ∧ Web.Trail (.to .post address (Form.ofFile path content))
          (.to .post address (Form.ofFile path content) :: more) := by
  obtain ⟨content, first, found, granted⟩ := Call.exists_of_bind_eq_ok granted
  obtain ⟨address, second, known, granted⟩ := Call.exists_of_bind_eq_ok granted
  obtain ⟨answer, third, asked, granted⟩ := Call.exists_of_bind_eq_ok granted
  obtain ⟨taken, fourth, understood, granted⟩ := Call.exists_of_bind_eq_ok granted
  obtain ⟨opened, rfl⟩ := Prod.mk.inj found
  obtain ⟨built, rfl⟩ := Prod.mk.inj known
  obtain ⟨_, rfl⟩ := Prod.mk.inj understood
  obtain ⟨_, rfl⟩ := Prod.mk.inj granted
  obtain ⟨more, sent, trail⟩ := ask_granted peer asked
  exact ⟨content, address, more, Except.mapError_eq_ok_iff.mp opened, built, sent, trail⟩

end Client
end DocPipeline
