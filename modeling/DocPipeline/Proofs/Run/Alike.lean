import DocPipeline.Proofs.Service.Alike

/-! Two runs side by side, of graphs that differ in their credentials. Each phase is alike for both,
so they deliver the same and leave the same tree. What they send and what they put on record is the
same too, except that each registers its own graph.
-/

namespace DocPipeline

/-- Two moments of two runs, the first of which may register one graph and the second the other. -/
inductive Moment.Paired (wanted : Bool) (graph other : Graph) : Moment → Moment → Prop
  | same {moment : Moment} (plain : ∀ graph, moment ≠ .asked (.create graph))
    : Paired wanted graph other moment moment
  | registering (registered : wanted = true)
    : Paired wanted graph other (.asked (.create graph)) (.asked (.create other))

/-- Two runs have come to the same point: what is there is the same, and what happened since they
began in one scene belongs together.
-/
structure Scene.Beside {σ : Type} (client : Client) (wanted : Bool) (graph other : Graph)
    (start first second : Scene σ) : Prop where
  tree : first.tree = second.tree
  outside : first.outside.Beside (Web.Paired client wanted graph other)
    start.outside.traffic.taken second.outside
  moments : Continued (Moment.Paired wanted graph other) start.moments first.moments second.moments

-----------------------------------------------------------------------------------------
-- Waits
-----------------------------------------------------------------------------------------

/-- Waits that ask alike get the same answers, by induction on the checks that are left. -/
theorem Wait.continueFrom_alike {S : Type} {Related : S → S → Prop} (clock : Clock)
    (schedule : Schedule) (content : String) {ask : S → Except Failure Status × S}
    (alike : ∀ s t, Related s t → ∃ answer s' t',
      ask s = (answer, s') ∧ ask t = (answer, t') ∧ Related s' t')
    (limit : Option Nat) (number now left : Nat) {s t : S} (related : Related s t)
    : ∃ checks result s' t',
        continueFrom clock schedule content ask limit number now left s = ⟨checks, result, s'⟩
        ∧ continueFrom clock schedule content ask limit number now left t = ⟨checks, result, t'⟩
        ∧ Related s' t' := by
  induction left generalizing number now s t with
  | zero => exact ⟨[], _, s, t, rfl, rfl, related⟩
  | succ left ih =>
      obtain ⟨answer, s', t', one, two, later⟩ := alike s t related
      unfold continueFrom
      rw [one, two]
      dsimp only
      cases settled content number answer with
      | some result => exact ⟨_, _, s', t', rfl, rfl, later⟩
      | none =>
          cases nextTime clock schedule number now with
          | none => exact ⟨_, _, s', t', rfl, rfl, later⟩
          | some next =>
              dsimp only
              split
              · exact ⟨_, _, s', t', rfl, rfl, later⟩
              · obtain ⟨checks, result, s', t', one, two, later⟩ := ih (number + 1) next later
                rw [one, two]
                exact ⟨_, _, s', t', rfl, rfl, later⟩

theorem Wait.run_alike {S : Type} {Related : S → S → Prop} (clock : Clock) (schedule : Schedule)
    (content : String) {ask : S → Except Failure Status × S}
    (alike : ∀ s t, Related s t → ∃ answer s' t',
      ask s = (answer, s') ∧ ask t = (answer, t') ∧ Related s' t')
    (limit : Option Nat) {s t : S} (related : Related s t)
    : ∃ checks result s' t',
        run clock schedule content ask limit s = ⟨checks, result, s'⟩
        ∧ run clock schedule content ask limit t = ⟨checks, result, t'⟩ ∧ Related s' t' := by
  unfold run
  split
  · exact continueFrom_alike clock schedule content alike limit 1 0 countableChecks related
  · exact ⟨[], _, s, t, rfl, rfl, related⟩

-----------------------------------------------------------------------------------------
-- Phases
-----------------------------------------------------------------------------------------

section Phases

variable {σ α : Type} {client : Client} {wanted : Bool} {graph other : Graph} {start : Scene σ}

namespace Phase

theorem examine_alike (look : Tree → Except Failure α)
    : Alike (Scene.Beside client wanted graph other start) (examine look) (examine look) :=
  fun s t related => ⟨look s.tree, s, t, rfl, by rw [related.tree]; rfl, related⟩

theorem record_alike {moment beside : Moment}
    (paired : Moment.Paired wanted graph other moment beside)
    : Alike (Scene.Beside client wanted graph other start) (record [moment]) (record [beside]) :=
  fun _ _ related =>
    ⟨.ok (), _, _, rfl, rfl, { related with
      moments := related.moments.append (.cons paired .nil) }⟩

theorem report_alike (listener : Option Listener) (event : Event)
    : Alike (Scene.Beside client wanted graph other start) (report listener event)
        (report listener event) := by
  cases listener with
  | none => exact Alike.pure ()
  | some who => exact record_alike (.same nofun)

theorem consult_alike {question beside : Question} {call second : Call σ α}
    (paired : Moment.Paired wanted graph other (.asked question) (.asked beside))
    (alike : Alike (Outside.Beside (Web.Paired client wanted graph other)
      start.outside.traffic.taken) call second)
    : Alike (Scene.Beside client wanted graph other start) (consult question call)
        (consult beside second) := by
  refine (record_alike paired).bind fun _ => ?_
  intro s t related
  obtain ⟨result, s', t', left, right, later⟩ := alike s.outside t.outside related.outside
  refine ⟨result, { s with outside := s' }, { t with outside := t' }, ?_, ?_,
    { related with outside := later }⟩
  · change ((call.run.run s.outside).1, { s with outside := (call.run.run s.outside).2 }) = _
    rw [left]
  · change ((second.run.run t.outside).1, { t with outside := (second.run.run t.outside).2 }) = _
    rw [right]

/-- A question that registers nothing is alike for both if its answer is. -/
theorem consult_self (question : Question) (plain : ∀ graph, question ≠ .create graph)
    {call : Call σ α}
    (alike : Alike (Outside.Beside (Web.Paired client wanted graph other)
      start.outside.traffic.taken) call call)
    : Alike (Scene.Beside client wanted graph other start) (consult question call)
        (consult question call) :=
  consult_alike (.same fun graph same => plain graph (Moment.asked.inj same)) alike

/-- The moments of a check register nothing, by cases on its answer and the listener. -/
theorem momentsOf_paired (listener : Option Listener) (content : String) (check : Check)
    : List.Forall₂ (Moment.Paired wanted graph other) (momentsOf listener content check)
        (momentsOf listener content check) := by
  rw [List.forall₂_same]
  intro moment member
  refine .same fun graph same => ?_
  obtain ⟨number, time, answer⟩ := check
  cases answer with
  | error failure => simp [momentsOf, same] at member
  | ok status => cases listener <;> simp [momentsOf, same] at member

theorem wait_alike (clock : Clock) (schedule : Schedule) (listener : Option Listener)
    (content : String) {status : Call σ Status}
    (alike : Alike (Outside.Beside (Web.Paired client wanted graph other)
      start.outside.traffic.taken) status status)
    : Alike (Scene.Beside client wanted graph other start)
        (wait clock schedule listener content status)
        (wait clock schedule listener content status) := by
  intro s t related
  obtain ⟨checks, result, s', t', one, two, later⟩ :=
    Wait.run_alike clock schedule content alike none related.outside
  have moments : List.Forall₂ (Moment.Paired wanted graph other)
      (checks.flatMap (momentsOf listener content))
      (checks.flatMap (momentsOf listener content)) := by
    rw [List.forall₂_same]
    intro moment member
    obtain ⟨check, _, inside⟩ := List.mem_flatMap.mp member
    exact List.forall₂_same.mp (momentsOf_paired listener content check) moment inside
  refine ⟨result.getD (.error (.internal "the wait was given up")),
    { s with
      outside := s', moments := s.moments ++ checks.flatMap (momentsOf listener content) },
    { t with
      outside := t', moments := t.moments ++ checks.flatMap (momentsOf listener content) },
    ?_, ?_, related.tree, later, related.moments.append moments⟩
  · simp only [wait, ExceptT.run_mk, StateT.run]
    have waited : Wait.run clock schedule content status.outcome none s.outside = _ := one
    rw [waited]
  · simp only [wait, ExceptT.run_mk, StateT.run]
    have waited : Wait.run clock schedule content status.outcome none t.outside = _ := two
    rw [waited]

/-- The tree is freed of the same things afterwards. -/
theorem releasing_alike (document : Document) {phase second : Phase σ α}
    (alike : Alike (Scene.Beside client wanted graph other start) phase second)
    : Alike (Scene.Beside client wanted graph other start) (Run.releasing document phase)
        (Run.releasing document second) := by
  intro s t related
  obtain ⟨result, s', t', left, right, later⟩ := alike s t related
  refine ⟨result, { s' with tree := document.release s'.tree },
    { t' with tree := document.release t'.tree }, ?_, ?_,
    { later with tree := by rw [later.tree] }⟩
  · change ((phase.run.run s).1, { (phase.run.run s).2 with
      tree := document.release (phase.run.run s).2.tree }) = _
    rw [left]
  · change ((second.run.run t).1, { (second.run.run t).2 with
      tree := document.release (second.run.run t).2.tree }) = _
    rw [right]

end Phase

-----------------------------------------------------------------------------------------
-- Documents
-----------------------------------------------------------------------------------------

variable {traffic beside : Web.Traffic} {taken : List Web.Request} (peer : Web.Peer) (seconds : Nat)

theorem Download.fetch_alike (url : String)
    (related : traffic.Beside (Web.Paired client wanted graph other) taken beside)
    : ∃ result after afterBeside,
        fetch peer seconds url traffic = (result, after)
        ∧ fetch peer seconds url beside = (result, afterBeside)
        ∧ after.Beside (Web.Paired client wanted graph other) taken afterBeside := by
  unfold fetch
  cases Url.parse url with
  | error fault => exact ⟨_, _, _, rfl, rfl, related⟩
  | ok address =>
      obtain ⟨result, after, afterBeside, one, two, later⟩ :=
        Web.follow_paired peer Web.followedRedirects
          (.same (.asking ..) : Web.Paired client wanted graph other (.to .get address .nothing) _)
          related
      have sent : Web.send peer .get address .nothing traffic = (result, after) := one
      have alsoSent : Web.send peer .get address .nothing beside = (result, afterBeside) := two
      dsimp only
      rw [sent, alsoSent]
      cases result with
      | error fault => exact ⟨_, _, _, rfl, rfl, later⟩
      | ok answer =>
          dsimp only
          split <;> exact ⟨_, _, _, rfl, rfl, later⟩

theorem Download.toFile_alike (url path : String) (tree : Tree)
    (related : traffic.Beside (Web.Paired client wanted graph other) taken beside)
    : ∃ result last after afterBeside,
        toFile peer seconds url path tree traffic = (result, last, after)
        ∧ toFile peer seconds url path tree beside = (result, last, afterBeside)
        ∧ after.Beside (Web.Paired client wanted graph other) taken afterBeside := by
  obtain ⟨result, after, afterBeside, one, two, later⟩ := fetch_alike peer seconds url related
  unfold toFile
  rw [one, two]
  cases result <;> exact ⟨_, _, _, _, rfl, rfl, later⟩

/-- The document of an input is the same, by cases on what the input names. -/
theorem Document.resolve_alike (workDir : Option String) (input : String) (tree : Tree)
    (related : traffic.Beside (Web.Paired client wanted graph other) taken beside)
    : ∃ result last after afterBeside,
        resolve peer seconds workDir input tree traffic = (result, last, after)
        ∧ resolve peer seconds workDir input tree beside = (result, last, afterBeside)
        ∧ after.Beside (Web.Paired client wanted graph other) taken afterBeside := by
  unfold resolve
  split
  · unfold atAddress
    cases workDir with
    | some directory =>
        obtain ⟨result, last, after, afterBeside, one, two, later⟩ :=
          Download.toFile_alike peer seconds input (Path.join directory (Url.fileName input)) tree
            related
        dsimp only
        rw [one, two]
        exact ⟨_, _, _, _, rfl, rfl, later⟩
    | none =>
        obtain ⟨result, last, after, afterBeside, one, two, later⟩ :=
          Download.toFile_alike peer seconds input
            (temporaryPath (tree.freshLocation []) (Url.fileName input))
            (tree.put (tree.freshLocation []) .directory) related
        dsimp only
        rw [one, two]
        cases result <;> exact ⟨_, _, _, _, rfl, rfl, later⟩
  · exact ⟨_, _, _, _, rfl, rfl, related⟩

end Phases

-----------------------------------------------------------------------------------------
-- Runs
-----------------------------------------------------------------------------------------

/-- The run of a client with a graph. -/
def Client.plan {σ : Type} (client : Client) (settings : Settings) (peer : Web.Peer)
    (clock : Clock) (graph : Graph) : Plan σ :=
  ⟨settings, graph, client.service peer, peer, clock⟩

namespace Run

variable {σ : Type} {client : Client} {settings : Settings} {peer : Web.Peer} {clock : Clock}
  {graph other : Graph} {start : Scene σ}

theorem resolve_alike (input : String)
    : Alike (Scene.Beside client settings.createGraph graph other start)
        (resolve (client.plan settings peer clock graph) input)
        (resolve (client.plan settings peer clock other) input) := by
  intro s t related
  obtain ⟨result, last, after, afterBeside, one, two, later⟩ :=
    Document.resolve_alike peer settings.downloadSeconds.toNat settings.workDir input s.tree
      related.outside.traffic
  refine ⟨result, { s with tree := last, outside := { s.outside with traffic := after } },
    { t with tree := last, outside := { t.outside with traffic := afterBeside } }, ?_, ?_,
    rfl, ⟨related.outside.service, later⟩, related.moments⟩
  · simp only [resolve, ExceptT.run_mk, StateT.run, Client.plan]
    rw [one]
  · simp only [resolve, ExceptT.run_mk, StateT.run, Client.plan]
    rw [← related.tree, two]

/-- Registering comes before sending, and only the registrations differ; by cases on whether that is
wanted.
-/
theorem submit_alike (same : graph.SameButKeys other) (document : Document)
    : Alike (Scene.Beside client settings.createGraph graph other start)
        (submit (client.plan settings peer clock graph) document)
        (submit (client.plan settings peer clock other) document) := by
  have sends : Alike (Scene.Beside client settings.createGraph graph other start)
      (do
        let tree ← Phase.examine .ok
        let content ← Phase.consult (.upload graph.name document.path)
          (client.upload peer graph.name document.path tree)
        Phase.report settings.listener (.submitted content)
        return content)
      (do
        let tree ← Phase.examine .ok
        let content ← Phase.consult (.upload other.name document.path)
          (client.upload peer other.name document.path tree)
        Phase.report settings.listener (.submitted content)
        return content) := by
    rw [same.name]
    refine (Phase.examine_alike _).bind fun tree => ?_
    refine (Phase.consult_self _ (fun _ => Question.noConfusion)
      (Client.upload_alike peer _ _ _)).bind fun content => ?_
    exact (Phase.report_alike _ _).bind fun _ => Alike.pure content
  unfold submit
  dsimp only [Client.plan]
  by_cases wanted : settings.createGraph = true
  · simp only [wanted, if_true] at sends ⊢
    refine (Phase.consult_alike (.registering rfl) ?_).bind fun _ => sends
    exact Client.create_alike peer rfl same.name
  · simp only [wanted] at sends ⊢
    exact sends

theorem text_alike (same : graph.SameButKeys other) (policy content : String)
    : Alike (Scene.Beside client settings.createGraph graph other start)
        (text (client.plan settings peer clock graph) policy content)
        (text (client.plan settings peer clock other) policy content) := by
  unfold text
  dsimp only [Client.plan]
  rw [same.name]
  refine (Phase.consult_self _ (fun _ => Question.noConfusion)
    (Client.fetch_alike peer _ _ _)).bind fun artifacts => ?_
  exact Alike.purely _

/-- What is done with a document is alike phase by phase; of the policy only the name counts. -/
theorem process_alike (same : graph.SameButKeys other) {policy second : Policy}
    (named : policy.name = second.name) (document : Document)
    : Alike (Scene.Beside client settings.createGraph graph other start)
        (process (client.plan settings peer clock graph) policy document)
        (process (client.plan settings peer clock other) second document) := by
  refine (Phase.examine_alike _).bind fun size => ?_
  refine (Phase.report_alike _ _).bind fun _ => ?_
  refine (submit_alike same document).bind fun content => ?_
  refine (Phase.wait_alike _ _ _ _ (Client.status_alike peer _)).bind fun checks => ?_
  rw [named]
  refine (text_alike same second.name content).bind fun text => ?_
  refine (Phase.report_alike _ _).bind fun _ => ?_
  dsimp only [Client.plan]
  rw [same.name]
  exact Alike.pure _

/-- Both graphs break the same rule, or have output policies of one name. -/
theorem deliver_alike (same : graph.SameButKeys other) (input : String)
    : Alike (Scene.Beside client settings.createGraph graph other start)
        (deliver (client.plan settings peer clock graph) input)
        (deliver (client.plan settings peer clock other) input) := by
  have names := same.name_outputPolicy
  unfold deliver
  dsimp only [Client.plan]
  cases found : outputPolicy graph with
  | error failure =>
      cases alsoFound : outputPolicy other with
      | error failure =>
          rw [found, alsoFound] at names
          cases names
          exact Alike.purely _
      | ok second =>
          rw [found, alsoFound] at names
          cases names
  | ok policy =>
      cases alsoFound : outputPolicy other with
      | error failure =>
          rw [found, alsoFound] at names
          cases names
      | ok second =>
          rw [found, alsoFound] at names
          refine (resolve_alike input).bind fun document => ?_
          exact Phase.releasing_alike document (process_alike same (Except.ok.inj names) document)

theorem deliverTo_alike (same : graph.SameButKeys other) (input path : String)
    : Alike (Scene.Beside client settings.createGraph graph other start)
        (deliverTo (client.plan settings peer clock graph) input path)
        (deliverTo (client.plan settings peer clock other) input path) := by
  refine (deliver_alike same input).bind fun delivery => ?_
  intro s t related
  rcases replaced : s.tree.replace path (Text.Utf8.encode delivery.text) with ⟨result, last⟩
  refine ⟨result.map fun _ => delivery, { s with tree := last }, { t with tree := last }, ?_, ?_,
    rfl, related.outside, related.moments⟩
  · simp only [ExceptT.run_mk, StateT.run]
    rw [replaced]
  · simp only [ExceptT.run_mk, StateT.run]
    rw [← related.tree, replaced]

/-- Two runs of graphs that differ in their credentials are alike, with or without a file for the
text.
-/
theorem carryOut_alike (same : graph.SameButKeys other) (input : String) (output : Option String)
    : Alike (Scene.Beside client settings.createGraph graph other start)
        (carryOut (client.plan settings peer clock graph) input output)
        (carryOut (client.plan settings peer clock other) input output) := by
  cases output with
  | none => exact deliver_alike same input
  | some path => exact deliverTo_alike same input path

/-- A run registers its own graph and no other, and only if that is wanted: every request that is
taken carries no graph or registers this one. The run is put beside itself.
-/
theorem carryOut_registers (client : Client) (settings : Settings) (peer : Web.Peer) (clock : Clock)
    (graph : Graph) (input : String) (output : Option String) (scene : Scene σ)
    : let plan := client.plan settings peer clock graph
      let last := ((carryOut plan input output).outcome scene).2
      ∃ requests moments,
        last.outside.traffic.taken = scene.outside.traffic.taken ++ requests
        ∧ last.moments = scene.moments ++ moments
        ∧ (∀ request ∈ requests,
            request.Plain
            ∨ settings.createGraph = true ∧ request.graph? = some graph
              ∧ ∃ address, client.address ["extraction_graphs"] = .ok address
                ∧ Web.Registers address graph request)
        ∧ ∀ asked, .asked (.create asked) ∈ moments
          → settings.createGraph = true ∧ asked = graph := by
  intro plan last
  have begun : Scene.Beside client settings.createGraph graph graph scene scene scene :=
    ⟨rfl, ⟨rfl, rfl, Continued.refl ..⟩, Continued.refl ..⟩
  obtain ⟨result, left, right, one, two, related⟩ :=
    carryOut_alike (Graph.SameButKeys.refl graph) input output scene scene begun
  have ends : last = left := congrArg Prod.snd one
  obtain rfl : left = right := congrArg Prod.snd (one.symm.trans two)
  obtain ⟨requests, others, taken, alsoTaken, paired⟩ := related.outside.traffic.taken
  obtain ⟨moments, beside, recorded, alsoRecorded, pairs⟩ := related.moments
  obtain rfl : requests = others := List.append_cancel_left (taken.symm.trans alsoTaken)
  obtain rfl : moments = beside := List.append_cancel_left (recorded.symm.trans alsoRecorded)
  rw [ends]
  refine ⟨requests, moments, taken, recorded, ?_, ?_⟩
  · intro request member
    cases List.forall₂_same.mp paired request member with
    | same plain => exact .inl plain
    | registering registered found registers carried =>
        exact .inr ⟨registered, carried, _, found, registers⟩
  · intro asked member
    cases List.forall₂_same.mp pairs _ member with
    | same plain => exact absurd rfl (plain asked)
    | registering registered => exact ⟨registered, rfl⟩

end Run
end DocPipeline
