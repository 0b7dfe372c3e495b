import DocPipeline.Proofs.Service.Requests
import DocPipeline.Proofs.Web.Hops
import Mathlib.Control.Monad.Basic

/-! Artifacts and the requests for them. A listing is asked for once, and after it the children of
the policy, one by one and in their order; the first of them that does not arrive is the last one
that is asked for.
-/

namespace DocPipeline.Client

variable {σ : Type} {client : Client} {peer : Web.Peer} {base : Url} {child : Wire.Child}
  {children front rest : List Wire.Child} {service : σ}
  {start between last : Web.Traffic} {artifacts : List Artifact} {failure : Failure}

-----------------------------------------------------------------------------------------
-- Requests of a client
-----------------------------------------------------------------------------------------

/-- The base of the client is an address to which names can be added. -/
structure Extends (client : Client) (base : Url) : Prop where
  parsed : Url.parse client.base = .ok base
  carries : base.carriesPath = true

/-- The address of a thing in the space of a client with this base. -/
def addressOn (client : Client) (base : Url) (names : List String) : Url :=
  base.extend ("namespaces" :: client.space :: names)

theorem Extends.address (reaches : client.Extends base) (names : List String)
    : client.address names = .ok (client.addressOn base names) := by
  rw [Client.address, reaches.parsed]
  dsimp only
  rw [if_pos reaches.carries, addressOn]

/-- The address of the list of what a policy of a graph made of a content. -/
def listAddress (client : Client) (base : Url) (content graph policy : String) : Url :=
  client.addressOn base
    ["extraction_graphs", graph, "extraction_policies", policy, "content", content]

/-- The request for the list of what a policy of a graph made of a content. -/
def listRequest (client : Client) (base : Url) (content graph policy : String) : Web.Request :=
  .to .get (client.listAddress base content graph policy) .nothing

/-- The address at which a child is downloaded. -/
def childAddress (client : Client) (base : Url) (child : Wire.Child) : Url :=
  client.addressOn base ["content", child.id, "download"]

/-- The request for the download of a child. -/
def childRequest (client : Client) (base : Url) (child : Wire.Child) : Web.Request :=
  .to .get (client.childAddress base child) .nothing

-----------------------------------------------------------------------------------------
-- One child
-----------------------------------------------------------------------------------------

/-- What comes of the download of a child, between the traffic before and after it. -/
inductive Downloads (client : Client) (peer : Web.Peer) (base : Url) (child : Wire.Child)
    (before after : Web.Traffic) : Except Failure Artifact → Prop
  | arrived {answer : Web.Answer}
    (sent : Web.send peer .get (client.childAddress base child) .nothing before
      = (.ok answer, after))
    (success : Web.Code.isSuccess answer.code = true) (arrives : answer.arrival = .whole)
    : Downloads client peer base child before after
        (.ok ⟨child.id, child.mimeType, answer.body⟩)
  | unanswered {fault : Web.Fault}
    (sent : Web.send peer .get (client.childAddress base child) .nothing before
      = (.error fault, after))
    : Downloads client peer base child before after
        (.error (.serviceUnreachable "artifact download" fault.message))
  | refused {answer : Web.Answer}
    (sent : Web.send peer .get (client.childAddress base child) .nothing before
      = (.ok answer, after))
    (refusal : Web.Code.isSuccess answer.code = false)
    : Downloads client peer base child before after
        (.error (.serviceRefused "artifact download" answer.code (refusalText answer)))
  | incomplete {answer : Web.Answer}
    (sent : Web.send peer .get (client.childAddress base child) .nothing before
      = (.ok answer, after))
    (success : Web.Code.isSuccess answer.code = true) (arrives : answer.arrival ≠ .whole)
    : Downloads client peer base child before after
        (.error (.answerUnclear "artifact download" "error decoding response body"))

theorem exists_downloads (client : Client) (peer : Web.Peer) (base : Url) (child : Wire.Child)
    (before : Web.Traffic)
    : ∃ after result, Downloads client peer base child before after result := by
  rcases sent : Web.send peer .get (client.childAddress base child) .nothing before
    with ⟨result, after⟩
  refine ⟨after, ?_⟩
  cases result with
  | error fault => exact ⟨_, .unanswered sent⟩
  | ok answer =>
      cases success : Web.Code.isSuccess answer.code with
      | false => exact ⟨_, .refused sent success⟩
      | true =>
          by_cases arrives : answer.arrival = .whole
          · exact ⟨_, .arrived sent success arrives⟩
          · exact ⟨_, .incomplete sent success arrives⟩

theorem Downloads.sent {result : Except Failure Artifact}
    (downloads : Downloads client peer base child start last result)
    : Web.Sent peer [client.childRequest base child] start last := by
  have made := Web.send_sent peer .get (client.childAddress base child) .nothing start
  cases downloads with
  | arrived sent | unanswered sent | refused sent | incomplete sent =>
      rw [sent] at made
      exact made

theorem Downloads.leaves {artifact : Artifact}
    (downloads : Downloads client peer base child start last (.ok artifact))
    : (client.childRequest base child).Leaves := by
  cases downloads with
  | arrived sent => exact Web.leaves_of_send sent

/-- What a client makes of a download is what comes of it, by cases on that. -/
theorem Downloads.artifact {result : Except Failure Artifact} (reaches : client.Extends base)
    (downloads : Downloads client peer base child start last result)
    : (client.artifact peer child).outcome ⟨service, start⟩ = (result, ⟨service, last⟩) := by
  unfold Client.artifact
  rw [reaches.address, ← childAddress, Call.outcome_bind, outcome_purely]
  dsimp only
  rw [Call.outcome_bind]
  cases downloads with
  | unanswered sent => rw [outcome_ask sent, granted]
  | refused sent refusal =>
      rw [outcome_ask sent, granted, if_neg (Bool.eq_false_iff.mp refusal)]
  | arrived sent success arrives =>
      rw [outcome_ask sent, granted, if_pos success]
      dsimp only
      rw [Call.outcome_bind, outcome_purely, body, Web.Answer.wholeBody, arrives]
      rfl
  | @incomplete answer sent success arrives =>
      rw [outcome_ask sent, granted, if_pos success]
      dsimp only
      rw [Call.outcome_bind, outcome_purely, body, Web.Answer.wholeBody]
      cases arrived : answer.arrival with
      | whole => exact absurd arrived arrives
      | cut | late => rfl

-----------------------------------------------------------------------------------------
-- Children one after the other
-----------------------------------------------------------------------------------------

/-- All children arrive, one after the other, as these artifacts. -/
inductive Collected (client : Client) (peer : Web.Peer) (base : Url)
    : List Wire.Child → Web.Traffic → List Artifact → Web.Traffic → Prop
  | none (traffic : Web.Traffic) : Collected client peer base [] traffic [] traffic
  | next {child : Wire.Child} {children : List Wire.Child} {artifact : Artifact}
    {artifacts : List Artifact} {start between last : Web.Traffic}
    (first : Downloads client peer base child start between (.ok artifact))
    (rest : Collected client peer base children between artifacts last)
    : Collected client peer base (child :: children) start (artifact :: artifacts) last

/-- Some children arrive, and the one after them is the first that does not. -/
def Breaks (client : Client) (peer : Web.Peer) (base : Url) (front : List Wire.Child)
    (child : Wire.Child) (start : Web.Traffic) (failure : Failure) (last : Web.Traffic) : Prop :=
  ∃ artifacts between,
    Collected client peer base front start artifacts between
    ∧ Downloads client peer base child between last (.error failure)

namespace Collected

/-- The artifacts are described as their children were listed; by induction on the children. -/
theorem described (collected : Collected client peer base children start artifacts last)
    : artifacts.map (fun artifact => (artifact.id, artifact.mimeType))
      = children.map fun child => (child.id, child.mimeType) := by
  induction collected with
  | none => rfl
  | next first _ ih =>
      cases first
      rw [List.map_cons, List.map_cons, ih]

theorem length_eq (collected : Collected client peer base children start artifacts last)
    : artifacts.length = children.length := by
  simpa using congrArg List.length collected.described

theorem sent (collected : Collected client peer base children start artifacts last)
    : Web.Sent peer (children.map (client.childRequest base)) start last := by
  induction collected with
  | none => exact .none _
  | next first _ ih => exact first.sent.append ih

theorem leave (collected : Collected client peer base children start artifacts last)
    : ∀ request ∈ children.map (client.childRequest base), request.Leaves := by
  induction collected with
  | none =>
      rw [List.map_nil]
      exact List.forall_mem_nil _
  | next first _ ih =>
      rw [List.map_cons, List.forall_mem_cons]
      exact ⟨first.leaves, ih⟩

/-- Children that arrive are followed by whatever follows them; by induction on the children that
arrive.
-/
theorem mapM_append (reaches : client.Extends base)
    (collected : Collected client peer base front start artifacts last) (more : List Wire.Child)
    : ((front ++ more).mapM (client.artifact peer) : Call σ (List Artifact)).outcome
        ⟨service, start⟩
      = match (more.mapM (client.artifact peer) : Call σ (List Artifact)).outcome
          ⟨service, last⟩ with
        | (.ok further, after) => (.ok (artifacts ++ further), after)
        | (.error failure, after) => (.error failure, after) := by
  induction collected with
  | none traffic =>
      rw [List.nil_append]
      rcases (more.mapM (client.artifact peer) : Call σ (List Artifact)).outcome
        ⟨service, traffic⟩ with ⟨result, after⟩
      cases result <;> rfl
  | @next child front artifact artifacts start between last first _ ih =>
      rw [List.cons_append, List.mapM_cons, Call.outcome_bind, first.artifact reaches]
      dsimp only
      rw [Call.outcome_bind, ih]
      rcases (more.mapM (client.artifact peer) : Call σ (List Artifact)).outcome
        ⟨service, last⟩ with ⟨result, after⟩
      cases result <;> rfl

/-- Children that all arrive are what the client hands out. -/
theorem mapM (reaches : client.Extends base)
    (collected : Collected client peer base children start artifacts last)
    : (children.mapM (client.artifact peer) : Call σ (List Artifact)).outcome ⟨service, start⟩
      = (.ok artifacts, ⟨service, last⟩) := by
  rw [← List.append_nil children, collected.mapM_append reaches, List.mapM_nil]
  change (Except.ok (artifacts ++ []), _) = _
  rw [List.append_nil]

end Collected

namespace Breaks

/-- The first child that does not arrive is why the client fails, whatever comes after it. -/
theorem mapM (reaches : client.Extends base)
    (breaks : Breaks client peer base front child start failure last) (rest : List Wire.Child)
    : ((front ++ child :: rest).mapM (client.artifact peer) : Call σ (List Artifact)).outcome
        ⟨service, start⟩
      = (.error failure, ⟨service, last⟩) := by
  obtain ⟨artifacts, between, collected, fails⟩ := breaks
  rw [collected.mapM_append reaches, List.mapM_cons, Call.outcome_bind, fails.artifact reaches]

theorem sent (breaks : Breaks client peer base front child start failure last)
    : Web.Sent peer ((front ++ [child]).map (client.childRequest base)) start last := by
  obtain ⟨artifacts, between, collected, fails⟩ := breaks
  rw [List.map_append]
  exact collected.sent.append fails.sent

end Breaks

/-- Either all children arrive or there is a first one that does not; by induction on them. -/
theorem collected_or_breaks (client : Client) (peer : Web.Peer) (base : Url)
    (children : List Wire.Child) (start : Web.Traffic)
    : (∃ artifacts last, Collected client peer base children start artifacts last)
      ∨ ∃ front child rest failure last,
          children = front ++ child :: rest
          ∧ Breaks client peer base front child start failure last := by
  induction children generalizing start with
  | nil => exact .inl ⟨[], start, .none start⟩
  | cons child children ih =>
      obtain ⟨between, result, downloads⟩ := exists_downloads client peer base child start
      cases result with
      | error failure =>
          exact .inr ⟨[], child, children, failure, between, rfl, [], start, .none start, downloads⟩
      | ok artifact =>
          rcases ih between with ⟨artifacts, last, collected⟩
            | ⟨front, broken, rest, failure, last, rfl, artifacts, before, collected, fails⟩
          · exact .inl ⟨artifact :: artifacts, last, .next downloads collected⟩
          · exact .inr ⟨child :: front, broken, rest, failure, last, rfl, artifact :: artifacts,
              before, .next downloads collected, fails⟩

-----------------------------------------------------------------------------------------
-- All children of a policy
-----------------------------------------------------------------------------------------

/-- The peer lists these children for a content: its answer is granted, arrives as a whole, and can
be understood.
-/
def Lists (client : Client) (peer : Web.Peer) (base : Url) (content graph policy : String)
    (start : Web.Traffic) (children : List Wire.Child) (last : Web.Traffic) : Prop :=
  ∃ answer,
    Web.send peer .get (client.listAddress base content graph policy) .nothing start
      = (.ok answer, last)
    ∧ Web.Code.isSuccess answer.code = true
    ∧ answer.arrival = .whole
    ∧ (Json.ofBytes answer.body).bind Wire.listing = some children

variable {content graph policy : String}

/-- After a list the client asks for the children of the policy and for nothing else. -/
theorem Lists.fetch (reaches : client.Extends base)
    (lists : client.Lists peer base content graph policy start children last)
    : (client.fetch peer content graph policy : Call σ (List Artifact)).outcome ⟨service, start⟩
      = ((children.filter (·.source = policy)).mapM (client.artifact peer)
          : Call σ (List Artifact)).outcome ⟨service, last⟩ := by
  obtain ⟨answer, sent, success, arrives, reads⟩ := lists
  have clear : (understood "artifact listing" Wire.listing answer) = .ok children := by
    rw [understood, body, Web.Answer.wholeBody, arrives, Except.ok_mapError, Except.ok_bind, reads]
    rfl
  unfold Client.fetch
  rw [reaches.address, ← listAddress, Call.outcome_bind, outcome_purely]
  dsimp only
  rw [Call.outcome_bind, outcome_ask sent, granted, if_pos success]
  dsimp only
  rw [Call.outcome_bind, outcome_purely, clear]

theorem Lists.sent (lists : client.Lists peer base content graph policy start children last)
    : Web.Sent peer [client.listRequest base content graph policy] start last := by
  obtain ⟨answer, sent, _⟩ := lists
  have made := Web.send_sent peer .get (client.listAddress base content graph policy) .nothing start
  rw [sent] at made
  exact made

theorem Lists.leaves (lists : client.Lists peer base content graph policy start children last)
    : (client.listRequest base content graph policy).Leaves := by
  obtain ⟨answer, sent, _⟩ := lists
  exact Web.leaves_of_send sent

/-- The artifacts of a policy are its children in the list, all of them and in the order of the
list. If they all arrive then each is handed out with what the list says of it, and nothing but the
list and these children has been asked for. The first one that does not arrive is the failure, and
none of the children after it has been asked for. One of the two is always the case. All of these
requests leave the client, except for the last one before a failure if its address is none that can
be sent.
-/
theorem fetch_collects_children (client : Client) (peer : Web.Peer) (base : Url)
    (content graph policy : String) (before : Outside σ) (children : List Wire.Child)
    (listed : Web.Traffic) (reaches : client.Extends base)
    (lists : client.Lists peer base content graph policy before.traffic children listed)
    : let chosen := children.filter (·.source = policy)
      let requests (children : List Wire.Child) : List Web.Request :=
        client.listRequest base content graph policy :: children.map (client.childRequest base)
      let fetched := (client.fetch peer content graph policy).outcome before
      (∀ artifacts last,
        Collected client peer base chosen listed artifacts last
        → fetched = (.ok artifacts, { before with traffic := last })
          ∧ artifacts.length = chosen.length
          ∧ artifacts.map (fun artifact => (artifact.id, artifact.mimeType))
            = chosen.map (fun child => (child.id, child.mimeType))
          ∧ Web.Sent peer (requests chosen) before.traffic last
          ∧ ∀ request ∈ requests chosen, request.Leaves)
      ∧ (∀ front child rest failure last,
          chosen = front ++ child :: rest
          → Breaks client peer base front child listed failure last
          → fetched = (.error failure, { before with traffic := last })
            ∧ Web.Sent peer (requests (front ++ [child])) before.traffic last
            ∧ ∀ request ∈ requests front, request.Leaves)
      ∧ ((∃ artifacts last, Collected client peer base chosen listed artifacts last)
        ∨ ∃ front child rest failure last,
            chosen = front ++ child :: rest
            ∧ Breaks client peer base front child listed failure last) := by
  intro chosen requests fetched
  have goes : fetched = (chosen.mapM (client.artifact peer)).outcome ⟨before.service, listed⟩ :=
    lists.fetch reaches
  refine ⟨?_, ?_, collected_or_breaks client peer base chosen listed⟩
  · intro artifacts last collected
    exact ⟨goes.trans (collected.mapM reaches), collected.length_eq, collected.described,
      lists.sent.append collected.sent, List.forall_mem_cons.mpr ⟨lists.leaves, collected.leave⟩⟩
  · intro front child rest failure last parted breaks
    rw [parted] at goes
    refine ⟨goes.trans (breaks.mapM reaches rest), lists.sent.append breaks.sent, ?_⟩
    obtain ⟨_, _, collected, _⟩ := breaks
    exact List.forall_mem_cons.mpr ⟨lists.leaves, collected.leave⟩

/-- A server that is asked for artifacts, and what is at these names on it. -/
def serverOf (names : List String) : Url :=
  ⟨"http".toList, [], [], some "h".toList, none, .segments (names.map String.toList), none, none⟩

/-- A peer that lists three children, of which the policy has the first and the last one, and then
gives these answers.
-/
def listingPeer (first second : Web.Answer) : Web.Peer
  | 0 =>
    let list := "[[[\"a\",\"m\",\"p\"],[\"b\",\"m\",\"q\"],[\"c\",\"m\",\"p\"]]]"
    .answer ⟨200, [], Text.Utf8.encode list, .whole⟩
  | 1 => .answer first
  | _ => .answer second

theorem send_of_serverOf {url : Url} {names : List String} {answer : Web.Answer}
    (place : url = serverOf names) (sendable : Web.isSendable (serverOf names) = true)
    (reply : peer start.tried = .answer answer)
    (stays : Web.redirectCodes.contains answer.code = false)
    : Web.send peer .get url .nothing start
      = (.ok answer, start.take (.to .get url .nothing)) := by
  subst place
  refine Web.send_answered sendable reply ?_
  rw [Web.redirectTarget?, if_neg (Bool.eq_false_iff.mp stays)]

/-- Two children of the policy among three are handed out after three requests. If the first of them
is refused, that is the failure after two requests.
-/
theorem fetch_collects_children_of_two
    : let client : Client := ⟨"http://h", "s", false⟩
      let outside : Outside Unit := ⟨(), .none⟩
      let fetched (first : Web.Answer) :=
        (client.fetch (listingPeer first ⟨200, [], [2], .whole⟩) "d" "g" "p").outcome outside
      let whole := fetched ⟨200, [], [1], .whole⟩
      let broken := fetched ⟨404, [], [], .whole⟩
      whole.1 = .ok [⟨"a", "m", [1]⟩, ⟨"c", "m", [2]⟩]
      ∧ whole.2.traffic.tried = 3
      ∧ broken.1 = .error (.serviceRefused "artifact download" 404 "")
      ∧ broken.2.traffic.tried = 2 := by
  intro client outside fetched whole broken
  have reaches : client.Extends (serverOf [""]) := ⟨by decide +kernel, rfl⟩
  obtain ⟨list, one, two⟩ :
      client.listAddress (serverOf [""]) "d" "g" "p" = serverOf ["namespaces", "s",
        "extraction_graphs", "g", "extraction_policies", "p", "content", "d"]
      ∧ client.childAddress (serverOf [""]) ⟨"a", "m", "p"⟩
        = serverOf ["namespaces", "s", "content", "a", "download"]
      ∧ client.childAddress (serverOf [""]) ⟨"c", "m", "p"⟩
        = serverOf ["namespaces", "s", "content", "c", "download"] := by
    decide +kernel
  have lists (first : Web.Answer)
      : client.Lists (listingPeer first ⟨200, [], [2], .whole⟩) (serverOf [""]) "d" "g" "p" .none
          [⟨"a", "m", "p"⟩, ⟨"b", "m", "q"⟩, ⟨"c", "m", "p"⟩] _ :=
    ⟨_, send_of_serverOf list (by decide +kernel) rfl (by decide), rfl, rfl, by decide +kernel⟩
  obtain ⟨collects, _, _⟩ := fetch_collects_children client _ _ "d" "g" "p" outside _ _ reaches
    (lists ⟨200, [], [1], .whole⟩)
  obtain ⟨_, breaks, _⟩ := fetch_collects_children client _ _ "d" "g" "p" outside _ _ reaches
    (lists ⟨404, [], [], .whole⟩)
  obtain ⟨arrived, _⟩ := collects _ _
    (.next (.arrived (send_of_serverOf one (by decide +kernel) rfl (by decide)) rfl rfl)
      (.next (.arrived (send_of_serverOf two (by decide +kernel) rfl (by decide)) rfl rfl)
        (.none _)))
  obtain ⟨refused, _⟩ := breaks [] ⟨"a", "m", "p"⟩ [⟨"c", "m", "p"⟩] _ _ rfl
    ⟨[], _, .none _, .refused (send_of_serverOf one (by decide +kernel) rfl (by decide)) rfl⟩
  have nothing : refusalText ⟨404, [], [], .whole⟩ = "" := by decide +kernel
  rw [nothing] at refused
  exact ⟨congrArg Prod.fst arrived, congrArg (·.2.traffic.tried) arrived,
    congrArg Prod.fst refused, congrArg (·.2.traffic.tried) refused⟩

end DocPipeline.Client
