import DocPipeline.Web.Traffic

/-! Requests and the hops that they take. A request is tried once, and tried again only where an
answer leads it on; requests that are made one after the other take their hops in the same order.
-/

namespace DocPipeline.Web

variable {peer : Peer} {request : Request} {before between after : Traffic}

-----------------------------------------------------------------------------------------
-- One request
-----------------------------------------------------------------------------------------

/-- The traffic after a try that somebody takes. -/
def Traffic.take (traffic : Traffic) (request : Request) : Traffic :=
  ⟨traffic.tried + 1, traffic.taken ++ [request]⟩

/-- A request leaves the client if it can be sent. -/
def Request.Leaves (request : Request) : Prop :=
  isSendable request.url = true

/-- The hops of a request, in their order, between the traffic before and after them, and what the
last one comes to. Each hop but the first one is what the answer to the hop before made of it.
-/
inductive Hops (peer : Peer)
    : Request → Traffic → List Request → Except Fault Answer → Traffic → Prop
  | unsendable {request : Request} {traffic : Traffic} (stays : isSendable request.url = false)
    : Hops peer request traffic [] (.error (.unsendable request.url)) traffic
  | refused {request : Request} {traffic : Traffic} (reply : peer traffic.tried = .refusal)
    : Hops peer request traffic [request] (.error (.unanswered request.url false))
        { traffic with tried := traffic.tried + 1 }
  | hungUp {request : Request} {traffic : Traffic} (reply : peer traffic.tried = .hangUp)
    : Hops peer request traffic [request] (.error (.unanswered request.url false))
        (traffic.take request)
  | silent {request : Request} {traffic : Traffic} (reply : peer traffic.tried = .silence)
    : Hops peer request traffic [request] (.error (.unanswered request.url true))
        (traffic.take request)
  | answered {request : Request} {traffic : Traffic} {answer : Answer}
    (reply : peer traffic.tried = .answer answer)
    (stays : request.leadsTo? answer = none)
    : Hops peer request traffic [request] (.ok answer) (traffic.take request)
  | endless {request : Request} {traffic : Traffic} {answer : Answer} {place : Url}
    (reply : peer traffic.tried = .answer answer)
    (leads : request.leadsTo? answer = some place)
    : Hops peer request traffic [request] (.error (.endless place)) (traffic.take request)
  | redirected {request : Request} {traffic after : Traffic} {answer : Answer} {place : Url}
    {hops : List Request} {result : Except Fault Answer}
    (reply : peer traffic.tried = .answer answer)
    (leads : request.leadsTo? answer = some place)
    (rest : Hops peer (request.redirected answer.code place) (traffic.take request) hops result
      after)
    : Hops peer request traffic (request :: hops) result after

/-- The last try was taken, and nothing came back in time. -/
def EndsInSilence (peer : Peer) (before after : Traffic) : Prop :=
  before.tried < after.tried ∧ peer (after.tried - 1) = .silence

namespace Hops

variable {hops : List Request} {result : Except Fault Answer} {fault : Fault}

/-- Every hop is one try; by induction on the hops. -/
theorem tried (taken : Hops peer request before hops result after)
    : after.tried = before.tried + hops.length := by
  induction taken with
  | redirected _ _ _ ih =>
      rw [ih, List.length_cons, Traffic.take]
      dsimp only
      omega
  | _ => rfl

/-- Time runs out exactly where the last hop meets silence; by induction on the hops. -/
theorem isLate_iff (taken : Hops peer request before hops (.error fault) after)
    : fault.isLate = true ↔ EndsInSilence peer before after := by
  have once {traffic : Traffic} {reply : Reply} (replied : peer traffic.tried = reply)
      (heard : reply ≠ .silence) : ¬ (traffic.tried < traffic.tried + 1
        ∧ peer (traffic.tried + 1 - 1) = .silence) := by
    rintro ⟨_, silence⟩
    exact heard (replied.symm.trans silence)
  generalize failed : (Except.error fault : Except Fault Answer) = result at taken
  induction taken with
  | unsendable =>
      cases failed
      simp [Fault.isLate, EndsInSilence]
  | refused reply | hungUp reply =>
      cases failed
      exact iff_of_false nofun (once reply nofun)
  | endless reply =>
      cases failed
      exact iff_of_false nofun (once reply nofun)
  | silent reply =>
      cases failed
      exact iff_of_true rfl ⟨Nat.lt_succ_self _, reply⟩
  | answered => cases failed
  | @redirected _ traffic after _ _ _ _ reply _ rest ih =>
      have tried : after.tried = traffic.tried + 1 + _ := rest.tried
      refine (ih failed).trans (and_congr_left fun silence => ?_)
      have further : after.tried ≠ traffic.tried + 1 := by
        intro same
        rw [same] at silence
        cases reply.symm.trans silence
      dsimp only [Traffic.take]
      omega

end Hops

/-- Following redirects takes the hops of the request, at most one more than redirects are left; by
induction on these.
-/
theorem follow_hops (peer : Peer) (left : Nat) (request : Request) (traffic : Traffic)
    : ∃ hops, Hops peer request traffic hops (follow peer left request traffic).1
          (follow peer left request traffic).2
        ∧ hops.length ≤ left + 1 := by
  induction left using Nat.strongRecOn generalizing request traffic with
  | ind left ih =>
      unfold follow
      split
      case isFalse stays => exact ⟨[], .unsendable (by simpa using stays), Nat.zero_le _⟩
      case isTrue =>
        unfold exchange
        cases reply : peer traffic.tried with
        | refusal => exact ⟨[request], .refused reply, by simp⟩
        | hangUp => exact ⟨[request], .hungUp reply, by simp⟩
        | silence => exact ⟨[request], .silent reply, by simp⟩
        | answer answer =>
            dsimp only
            cases leads : request.leadsTo? answer with
            | none => exact ⟨[request], .answered reply leads, by simp⟩
            | some place =>
                cases left with
                | zero => exact ⟨[request], .endless reply leads, by simp⟩
                | succ left =>
                    obtain ⟨hops, rest, few⟩ := ih left left.lt_succ_self
                      (request.redirected answer.code place) (traffic.take request)
                    exact ⟨request :: hops, .redirected reply leads rest, by simpa using few⟩

/-- Only a request that leaves the client is answered. -/
theorem leaves_of_send {method : Method} {url : Url} {payload : Payload} {answer : Answer}
    (answered : send peer method url payload before = (.ok answer, after))
    : (Request.to method url payload).Leaves := by
  unfold send follow at answered
  split at answered
  case isFalse => cases answered
  case isTrue sendable => exact sendable

/-- An answer that leads nowhere else is the answer to the request. -/
theorem send_answered {method : Method} {url : Url} {payload : Payload} {answer : Answer}
    (leaves : (Request.to method url payload).Leaves)
    (reply : peer before.tried = .answer answer)
    (stays : redirectTarget? (Request.to method url payload).url answer = none)
    : send peer method url payload before
      = (.ok answer, before.take (.to method url payload)) := by
  have sendable : isSendable (Request.to method url payload).url = true := leaves
  have exchanged : exchange peer (.to method url payload) before
      = (.answer answer, before.take (.to method url payload)) := by
    rw [exchange, reply]
    rfl
  have ends : (Request.to method url payload).leadsTo? answer = none := by
    rw [Request.leadsTo?, stays, ite_self]
  rw [send, follow, if_pos sendable, exchanged]
  dsimp only
  rw [ends]

/-- A request fails late exactly where its last try meets silence. -/
theorem send_isLate_iff {method : Method} {url : Url} {payload : Payload} {fault : Fault}
    (failed : send peer method url payload before = (.error fault, after))
    : fault.isLate = true ↔ EndsInSilence peer before after := by
  obtain ⟨hops, taken, _⟩ :=
    follow_hops peer followedRedirects (.to method url payload) before
  rw [← send, failed] at taken
  exact taken.isLate_iff

-----------------------------------------------------------------------------------------
-- Requests one after the other
-----------------------------------------------------------------------------------------

/-- These requests are made one after the other and nothing else, with the traffic before and after
them. Each of them is led on at most as often as redirects are followed.
-/
inductive Sent (peer : Peer) : List Request → Traffic → Traffic → Prop
  | none (traffic : Traffic) : Sent peer [] traffic traffic
  | next {request : Request} {requests hops : List Request} {result : Except Fault Answer}
    {before between after : Traffic} (first : Hops peer request before hops result between)
    (few : hops.length ≤ followedRedirects + 1) (rest : Sent peer requests between after)
    : Sent peer (request :: requests) before after

namespace Sent

variable {requests more : List Request}

/-- Requests after requests, by induction on the first ones. -/
theorem append (first : Sent peer requests before between) (rest : Sent peer more between after)
    : Sent peer (requests ++ more) before after := by
  induction first with
  | none => exact rest
  | next hops few _ ih => exact .next hops few (ih rest)

end Sent

theorem send_sent (peer : Peer) (method : Method) (url : Url) (payload : Payload)
    (traffic : Traffic)
    : Sent peer [.to method url payload] traffic (send peer method url payload traffic).2 := by
  obtain ⟨hops, taken, few⟩ :=
    follow_hops peer followedRedirects (.to method url payload) traffic
  exact .next taken few (.none _)

end DocPipeline.Web
