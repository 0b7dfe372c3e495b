import DocPipeline.Proofs.Web.Hops

/-! Trails of requests. What is taken on behalf of one request is that request and what redirects
make of it, each time of the request before.
-/

namespace DocPipeline.Web

/-- What is taken on behalf of a request, in order. It ends where no answer leads on, or where
nobody takes what a redirect has made of the last request.
-/
inductive Trail : Request → List Request → Prop
  | untaken (request : Request) : Trail request []
  | taken (request : Request) : Trail request [request]
  | redirected {request : Request} {sent : List Request} (code : Nat) (place : Url)
    (rest : Trail (request.redirected code place) sent) : Trail request (request :: sent)

namespace Trail

variable {request : Request} {sent : List Request}

theorem exists_cons (trail : Trail request sent) (taken : sent ≠ [])
    : ∃ more, sent = request :: more := by
  cases trail with
  | untaken => exact absurd rfl taken
  | taken => exact ⟨[], rfl⟩
  | redirected => exact ⟨_, rfl⟩

/-- A redirect repeats what is sent along or drops it, by cases on its code. -/
theorem payload_redirected (request : Request) (code : Nat) (place : Url)
    : (request.redirected code place).payload = request.payload
      ∨ (request.redirected code place).payload = .nothing := by
  simp only [Request.redirected]
  split
  · exact .inl rfl
  · exact .inr rfl

/-- All requests of a trail send along the same, until it is dropped; by induction on the trail. -/
theorem payload (trail : Trail request sent)
    : ∀ other ∈ sent, other.payload = request.payload ∨ other.payload = .nothing := by
  induction trail with
  | untaken => exact List.forall_mem_nil _
  | taken => simp
  | @redirected request sent code place rest ih =>
      intro other member
      rcases List.mem_cons.mp member with rfl | member
      · exact .inl rfl
      · rcases ih other member with same | dropped
        · rw [same]
          exact payload_redirected request code place
        · exact .inr dropped

end Trail

/-- What somebody takes of the hops of a request is its trail, which is not empty if an answer is
found in the end; by induction on the hops.
-/
theorem Hops.trail {peer : Peer} {request : Request} {hops : List Request} {before after : Traffic}
    {result : Except Fault Answer} (taken : Hops peer request before hops result after)
    : ∃ sent, after.taken = before.taken ++ sent
        ∧ Trail request sent
        ∧ ∀ answer, result = .ok answer → sent ≠ [] := by
  induction taken with
  | unsendable | refused =>
      exact ⟨[], (List.append_nil _).symm, .untaken _, nofun⟩
  | hungUp | silent | endless => exact ⟨[_], rfl, .taken _, nofun⟩
  | answered => exact ⟨[_], rfl, .taken _, by simp⟩
  | @redirected request _ _ _ _ _ _ _ _ _ ih =>
      obtain ⟨sent, further, trail, _⟩ := ih
      refine ⟨request :: sent, ?_, .redirected _ _ trail, by simp⟩
      rw [further, Traffic.take, List.append_assoc]
      rfl

theorem follow_trail (peer : Peer) (left : Nat) (request : Request) (traffic : Traffic)
    : ∃ sent, (follow peer left request traffic).2.taken = traffic.taken ++ sent
        ∧ Trail request sent
        ∧ ∀ answer, (follow peer left request traffic).1 = .ok answer → sent ≠ [] := by
  obtain ⟨hops, taken, _⟩ := follow_hops peer left request traffic
  exact taken.trail

/-- What was taken in between is all of one kind. -/
def Traffic.Grows (Kind : Request → Prop) (before after : Traffic) : Prop :=
  ∃ sent, after.taken = before.taken ++ sent ∧ ∀ request ∈ sent, Kind request

namespace Traffic.Grows

variable {Kind : Request → Prop} {before between after : Traffic}

theorem refl (Kind : Request → Prop) (traffic : Traffic) : traffic.Grows Kind traffic :=
  ⟨[], (List.append_nil _).symm, List.forall_mem_nil _⟩

theorem trans (first : before.Grows Kind between) (second : between.Grows Kind after)
    : before.Grows Kind after := by
  obtain ⟨sent, taken, kind⟩ := first
  obtain ⟨more, further, alsoKind⟩ := second
  refine ⟨sent ++ more, ?_, ?_⟩
  · rw [further, taken, List.append_assoc]
  · simpa only [List.forall_mem_append] using ⟨kind, alsoKind⟩

end Traffic.Grows

/-- Whatever is sent for an address is of a kind if all trails from there are. -/
theorem send_grows {Kind : Request → Prop} (peer : Peer) (method : Method) (url : Url)
    (payload : Payload) (traffic : Traffic)
    (kind : ∀ sent, Trail (.to method url payload) sent → ∀ request ∈ sent, Kind request)
    : traffic.Grows Kind (send peer method url payload traffic).2 := by
  obtain ⟨sent, taken, trail, _⟩ :=
    follow_trail peer followedRedirects (.to method url payload) traffic
  exact ⟨sent, taken, kind sent trail⟩

/-- The request sends no form along. -/
def Request.IsFormless (request : Request) : Prop :=
  ∀ head content, request.payload ≠ .form head content

theorem Trail.isFormless {request : Request} {sent : List Request} (trail : Trail request sent)
    (formless : request.IsFormless) : ∀ other ∈ sent, other.IsFormless := by
  intro other member head content form
  rcases trail.payload other member with same | dropped
  · exact formless head content (same.symm.trans form)
  · rw [dropped] at form
    cases form

end DocPipeline.Web
