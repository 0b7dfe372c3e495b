import DocPipeline.Proofs.Graph.Keys
import DocPipeline.Proofs.Web.Registration

/-! Clients of two runs. Two clients that register graphs of one name, and ask the same of the
service otherwise, get the same answers and leave the same traffic behind, except for the bodies
with which the graphs are registered.
-/

namespace DocPipeline

/-- The states of the service are the same, and so is the traffic except for registrations. -/
structure Outside.Beside {σ : Type} (Pair : Web.Request → Web.Request → Prop)
    (start : List Web.Request) (first second : Outside σ) : Prop where
  service : first.service = second.service
  traffic : first.traffic.Beside Pair start second.traffic

namespace Client

variable {σ : Type} {client : Client} {wanted : Bool} {graph other : Graph}
  {start : List Web.Request} (peer : Web.Peer)

/-- Two requests that belong together get the same answer. -/
theorem ask_alike (operation : String) (method : Web.Method) (url : Url)
    {payload payloadBeside : Web.Payload}
    (paired : Web.Paired client wanted graph other (.to method url payload)
      (.to method url payloadBeside))
    : Alike (Outside.Beside (Web.Paired client wanted graph other) start)
        (ask peer operation method url payload : Call σ Web.Answer)
        (ask peer operation method url payloadBeside) := by
  intro s t related
  obtain ⟨result, after, afterBeside, one, two, later⟩ :=
    Web.follow_paired peer Web.followedRedirects paired related.traffic
  refine ⟨granted operation result, { s with traffic := after },
    { t with traffic := afterBeside }, ?_, ?_, related.service, later⟩
  · change (granted operation (Web.follow peer _ _ s.traffic).1,
      { s with traffic := (Web.follow peer _ _ s.traffic).2 }) = _
    rw [one]
  · change (granted operation (Web.follow peer _ _ t.traffic).1,
      { t with traffic := (Web.follow peer _ _ t.traffic).2 }) = _
    rw [two]

/-- A call that carries no graph is alike for both. -/
theorem ask_self (operation : String) (method : Web.Method) (url : Url) (payload : Web.Payload)
    (plain : (Web.Request.to method url payload).Plain)
    : Alike (Outside.Beside (Web.Paired client wanted graph other) start)
        (ask peer operation method url payload : Call σ Web.Answer)
        (ask peer operation method url payload) :=
  ask_alike peer operation method url (.same plain)

/-- The registrations of two graphs of one name are alike: what a refusal means depends on the name
only.
-/
theorem create_alike (registered : wanted = true) (named : graph.name = other.name)
    : Alike (Outside.Beside (Web.Paired client wanted graph other) start)
        (client.create peer graph : Call σ Unit) (client.create peer other) := by
  refine Alike.decided fun url found => ?_
  have first : Web.Registers url graph _ := .straight
  have second : Web.Registers url other _ := .straight
  have asked : Alike (Outside.Beside (Web.Paired client wanted graph other) start)
      (ask peer "graph creation" .post url (.json graph.toJson.compact) : Call σ Web.Answer)
      (ask peer "graph creation" .post url (.json other.toJson.compact)) :=
    ask_alike peer "graph creation" .post url
      (.registering registered found first first.graph? second second.graph? rfl)
  have meaning : client.registered graph = client.registered other := by
    funext result
    unfold Client.registered
    rw [named]
  refine asked.lift.bind fun result => ?_
  rw [meaning]
  exact Alike.purely _

/-- A file is sent to a graph of a name. -/
theorem upload_alike (name path : String) (tree : Tree)
    : Alike (Outside.Beside (Web.Paired client wanted graph other) start)
        (client.upload peer name path tree : Call σ String)
        (client.upload peer name path tree) := by
  refine Alike.decided fun content _ => Alike.decided fun url _ => ?_
  refine (ask_self peer "upload" .post url (Form.ofFile path content) (.posting ..)).bind
    fun answer => ?_
  exact Alike.decided fun content _ => Alike.purely _

theorem status_alike (content : String)
    : Alike (Outside.Beside (Web.Paired client wanted graph other) start)
        (client.status peer content : Call σ Status) (client.status peer content) := by
  refine Alike.decided fun url _ => ?_
  refine (ask_self peer "status check" .get url .nothing (.asking ..)).bind fun answer => ?_
  exact Alike.decided fun tasks _ => Alike.pure _

theorem artifact_alike (child : Wire.Child)
    : Alike (Outside.Beside (Web.Paired client wanted graph other) start)
        (client.artifact peer child : Call σ Artifact) (client.artifact peer child) := by
  refine Alike.decided fun url _ => ?_
  refine (ask_self peer "artifact download" .get url .nothing (.asking ..)).bind fun answer => ?_
  exact Alike.decided fun content _ => Alike.pure _

theorem fetch_alike (content name policy : String)
    : Alike (Outside.Beside (Web.Paired client wanted graph other) start)
        (client.fetch peer content name policy : Call σ (List Artifact))
        (client.fetch peer content name policy) := by
  refine Alike.decided fun url _ => ?_
  refine (ask_self peer "artifact listing" .get url .nothing (.asking ..)).bind fun answer => ?_
  exact Alike.decided fun children _ => Alike.mapM (artifact_alike peer) _

end Client
end DocPipeline
