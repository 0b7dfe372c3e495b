import DocPipeline.Proofs.Alike
import DocPipeline.Proofs.Graph.Json
import DocPipeline.Service.Client

/-! Requests of two runs that register a graph each. Only the bodies with which the graphs are
registered differ: every other request carries neither graph, and whether a request is answered and
where a redirect leads depends on its address and on the number of requests before it.
-/

namespace DocPipeline

namespace Web

/-- The graph that a request carries. -/
def Request.graph? (request : Request) : Option Graph :=
  match request.payload with
  | .json text => (Json.ofText text).bind Graph.ofJson
  | _ => none

/-- The request carries no graph: it asks for something, or it posts a file in a form. -/
inductive Request.Plain : Request → Prop
  | asking (url : Url) (authorization : Option String) : Plain ⟨.get, url, .nothing, authorization⟩
  | posting (url : Url) (authorization : Option String) (head content : Bytes)
    : Plain ⟨.post, url, .form head content, authorization⟩

/-- A redirect leaves such a request as it is or makes it one that asks for something. -/
theorem Request.Plain.redirected {request : Request} (plain : request.Plain) (code : Nat)
    (place : Url) : (request.redirected code place).Plain := by
  unfold Request.redirected
  split
  · cases plain with
    | asking => exact .asking ..
    | posting => exact .posting ..
  · exact .asking ..

/-- The request registers a graph at an address: it is the one for that address, or a redirect asks
for such a request again.
-/
inductive Registers (address : Url) (graph : Graph) : Request → Prop
  | straight : Registers address graph (.to .post address (.json graph.toJson.compact))
  | again {request : Request} (earlier : Registers address graph request) (code : Nat)
    (place : Url) (repeats : repeatingCodes.contains code = true)
    : Registers address graph (request.redirected code place)

namespace Registers

variable {address : Url} {graph : Graph} {request : Request}

/-- A registration is posted with the text of its graph, by induction on the redirects. -/
theorem posts (registers : Registers address graph request)
    : request.method = .post ∧ request.payload = .json graph.toJson.compact := by
  induction registers with
  | straight => exact ⟨rfl, rfl⟩
  | again earlier code place repeats ih =>
      simpa only [Request.redirected, repeats, if_true] using ih

theorem graph? (registers : Registers address graph request) : request.graph? = some graph := by
  rw [Request.graph?, registers.posts.2]
  exact Graph.ofText_toJson graph

end Registers

/-- Two requests of two runs, the first of which may register one graph and the second the other.
They are the same request, or they register the graphs and nothing but their bodies differs.
-/
inductive Paired (client : Client) (wanted : Bool) (graph other : Graph)
    : Request → Request → Prop
  | same {request : Request} (plain : request.Plain)
    : Paired client wanted graph other request request
  | registering {request second : Request} {address : Url} (registered : wanted = true)
    (found : client.address ["extraction_graphs"] = .ok address)
    (registers : Registers address graph request) (carried : request.graph? = some graph)
    (others : Registers address other second) (alsoCarried : second.graph? = some other)
    (rest : second = { request with payload := second.payload })
    : Paired client wanted graph other request second

namespace Paired

variable {client : Client} {wanted : Bool} {graph other : Graph} {request second : Request}

theorem url (paired : Paired client wanted graph other request second)
    : second.url = request.url := by
  cases paired with
  | same => rfl
  | registering _ _ _ _ _ _ rest => rw [rest]

/-- An answer leads both requests of a pair to the same place, since no registration is a form. -/
theorem leadsTo? (paired : Paired client wanted graph other request second) (answer : Answer)
    : second.leadsTo? answer = request.leadsTo? answer := by
  cases paired with
  | same => rfl
  | registering _ _ registers _ others _ rest =>
      have place : second.url = request.url := by rw [rest]
      rw [Request.leadsTo?, Request.leadsTo?, place, registers.posts.2, others.posts.2]
      rfl

/-- A redirect that repeats the requests leaves a pair of registrations, and every other redirect
makes the same request of both; by cases on the code.
-/
theorem redirected (paired : Paired client wanted graph other request second) (code : Nat)
    (place : Url)
    : Paired client wanted graph other (request.redirected code place)
        (second.redirected code place) := by
  cases paired with
  | same plain => exact .same (plain.redirected code place)
  | registering registered found registers _ others _ rest =>
      by_cases repeats : repeatingCodes.contains code = true
      · have again := registers.again code place repeats
        have alsoAgain := others.again code place repeats
        refine .registering registered found again again.graph? alsoAgain alsoAgain.graph? ?_
        rw [rest]
        simp only [Request.redirected]
      · have turned : second.redirected code place = request.redirected code place := by
          rw [rest]
          simp only [Request.redirected, repeats]
          rfl
        rw [turned]
        refine .same ?_
        simp only [Request.redirected, repeats]
        exact .asking ..

end Paired

/-- The same number of requests was tried in two runs, and those that were taken belong together. -/
structure Traffic.Beside (Pair : Request → Request → Prop) (start : List Request)
    (first second : Traffic) : Prop where
  tried : first.tried = second.tried
  taken : Continued Pair start first.taken second.taken

variable {client : Client} {wanted : Bool} {graph other : Graph} {start : List Request}
  {request second : Request} {traffic beside : Traffic}

/-- The peer takes and answers both requests of a pair alike, since it sees their number only. -/
theorem exchange_paired (peer : Peer) (paired : Paired client wanted graph other request second)
    (related : traffic.Beside (Paired client wanted graph other) start beside)
    : ∃ reply after afterBeside,
        exchange peer request traffic = (reply, after)
        ∧ exchange peer second beside = (reply, afterBeside)
        ∧ after.Beside (Paired client wanted graph other) start afterBeside := by
  have taken := related.taken.append (.cons paired .nil)
  simp only [exchange, related.tried]
  cases peer beside.tried with
  | refusal => exact ⟨.refusal, _, _, rfl, rfl, { related with tried := rfl }⟩
  | hangUp => exact ⟨.hangUp, _, _, rfl, rfl, rfl, taken⟩
  | silence => exact ⟨.silence, _, _, rfl, rfl, rfl, taken⟩
  | answer answer => exact ⟨.answer answer, _, _, rfl, rfl, rfl, taken⟩

/-- Both requests of a pair come to the same end, by induction on the redirects that are left. -/
theorem follow_paired (peer : Peer) (left : Nat)
    (paired : Paired client wanted graph other request second)
    (related : traffic.Beside (Paired client wanted graph other) start beside)
    : ∃ result after afterBeside,
        follow peer left request traffic = (result, after)
        ∧ follow peer left second beside = (result, afterBeside)
        ∧ after.Beside (Paired client wanted graph other) start afterBeside := by
  induction left using Nat.strongRecOn generalizing request second traffic beside with
  | ind left ih =>
      obtain ⟨reply, after, afterBeside, one, two, later⟩ := exchange_paired peer paired related
      unfold follow
      rw [paired.url, one, two]
      split
      · cases reply with
        | answer answer =>
            dsimp only
            rw [paired.leadsTo?]
            cases request.leadsTo? answer with
            | none => exact ⟨_, _, _, rfl, rfl, later⟩
            | some place =>
                cases left with
                | zero => exact ⟨_, _, _, rfl, rfl, later⟩
                | succ left =>
                    exact ih left left.lt_succ_self (paired.redirected answer.code place) later
        | _ => exact ⟨_, _, _, rfl, rfl, later⟩
      · exact ⟨_, _, _, rfl, rfl, related⟩

end Web
end DocPipeline
