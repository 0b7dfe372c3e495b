import DocPipeline.CommandLine.Program
import DocPipeline.Proofs.CommandLine.Choices
import DocPipeline.Proofs.Graph.Languages
import DocPipeline.Proofs.Graph.Yaml
import DocPipeline.Proofs.Run.Alike
import DocPipeline.Proofs.Run.Protocol
import DocPipeline.Proofs.Service.Address
import DocPipeline.Proofs.Text.Pieces

/-! The graph that the command registers. It is the one that the command line asks for, it keeps all
rules, and each of its policies has a credential that the service can use. A graph without such
credentials is refused before anything is sent, and is still shown on request.
-/

namespace DocPipeline

-----------------------------------------------------------------------------------------
-- Graphs that keep the rules
-----------------------------------------------------------------------------------------

namespace Graph

/-- A graph that can be read keeps the rules. -/
theorem validate_of_ofYaml {text : String} {graph : Graph} (read : ofYaml text = .ok graph)
    : graph.validate = .ok () := by
  obtain ⟨document, _, read⟩ := Except.exists_of_bind_eq_ok read
  obtain ⟨known, _, read⟩ := Except.exists_of_bind_eq_ok read
  obtain ⟨_, valid, read⟩ := Except.exists_of_bind_eq_ok read
  obtain rfl : known = graph := Except.ok.inj read
  cases kept : known.validate with
  | ok _ => rfl
  | error violation =>
      rw [kept] at valid
      cases valid

theorem validate_of_load {tree : Tree} {path : String} {graph : Graph}
    (loaded : load tree path = .ok graph) : graph.validate = .ok () := by
  obtain ⟨content, _, loaded⟩ := Except.exists_of_bind_eq_ok loaded
  cases decoded : Text.Utf8.decode content with
  | error fault =>
      rw [decoded] at loaded
      cases loaded
  | ok text =>
      rw [decoded] at loaded
      exact validate_of_ofYaml loaded

/-- The YAML form of a graph that keeps the rules is read back. -/
theorem ofYaml_toYaml_of_valid {graph : Graph} (valid : graph.validate = .ok ())
    : ofYaml graph.toYaml = .ok graph := by
  obtain ⟨document, read, known⟩ := graph.ofDocument_toYaml
  rw [ofYaml, read, Except.ok_mapError, Except.ok_bind, known, Except.ok_mapError, Except.ok_bind,
    valid]
  rfl

end Graph

namespace CommandLine

open Run (oneDocument)

-----------------------------------------------------------------------------------------
-- The graph that is asked for
-----------------------------------------------------------------------------------------

namespace Options

/-- The options ask for this graph: the one in a file, or else the one for a language without a
credential, with the model and the credential of every policy replaced where they are given.
-/
def AsksFor (o : Options) (tree : Tree) (graph : Graph) : Prop :=
  ∃ base : Graph,
    (match o.graph with
      | some path => Graph.load tree path = .ok base
      | none => base = Graph.forLanguage o.language Graph.standardModel Graph.placeholderKey)
    ∧ graph = { base with
        policies := base.policies.map fun policy => { policy with
          params := ⟨o.model.getD policy.params.model, o.key.getD policy.params.key,
            policy.params.prompt⟩ } }

variable {o : Options} {tree : Tree} {graph : Graph}

/-- Replacing the model and then the credential is the same as replacing both at once, by cases on
which of them are given.
-/
theorem elim_withModel_withKey (model key : Option String) (base : Graph)
    : (key.elim (model.elim base base.withModel) (model.elim base base.withModel).withKey)
      = base.mapParams fun params =>
          ⟨model.getD params.model, key.getD params.key, params.prompt⟩ := by
  obtain ⟨name, description, policies⟩ := base
  cases model <;> cases key <;>
    simp [Graph.withModel, Graph.withKey, Graph.mapParams]

/-- The graph that is built is the one that is asked for. -/
theorem buildGraph_eq_ok_iff : o.buildGraph tree = .ok graph ↔ o.AsksFor tree graph := by
  have base_iff (base : Graph) : o.baseGraph tree = .ok base
      ↔ match o.graph with
        | some path => Graph.load tree path = .ok base
        | none => base = Graph.forLanguage o.language Graph.standardModel Graph.placeholderKey := by
    unfold baseGraph
    cases o.graph with
    | none => simp [eq_comm]
    | some path =>
        dsimp only
        cases Graph.load tree path <;> simp [Refusal.ofResult]
  constructor
  · intro built
    obtain ⟨base, found, built⟩ := Except.exists_of_bind_eq_ok built
    refine ⟨base, (base_iff base).mp found, ?_⟩
    dsimp only at built
    rw [elim_withModel_withKey] at built
    exact (Except.ok.inj built).symm
  · rintro ⟨base, found, rfl⟩
    rw [buildGraph, (base_iff base).mpr found, Except.ok_bind]
    dsimp only
    rw [elim_withModel_withKey]
    rfl

/-- What is asked for keeps the rules: so does the graph it is made from, and no rule reads the
parameters.
-/
theorem AsksFor.validate (asked : o.AsksFor tree graph) : graph.validate = .ok () := by
  obtain ⟨base, found, rfl⟩ := asked
  have valid : base.validate = .ok () := by
    cases file : o.graph with
    | none =>
        simp only [file] at found
        rw [found]
        exact Graph.validate_forLanguage ..
    | some path =>
        simp only [file] at found
        exact Graph.validate_of_load found
  exact (Graph.validate_mapParams
    (fun params => ⟨o.model.getD params.model, o.key.getD params.key, params.prompt⟩) base).trans
    valid

/-- The settings want a graph to be registered unless the options say otherwise. -/
theorem createGraph_of_settings {settings : Settings} (built : o.settings = .ok settings)
    : settings.createGraph = !o.skipCreate := by
  have same : settings = o.settingSteps.foldl Settings.set .standard := by
    simp only [Options.settings, Settings.build] at built
    cases checked : (o.settingSteps.foldl Settings.set .standard).check with
    | error violation =>
        rw [checked] at built
        cases built
    | ok _ =>
        rw [checked] at built
        exact (Except.ok.inj built).symm
  rw [same, settingSteps]
  cases o.workDir <;> cases o.showsProgress <;> rfl

/-- What is planned is a run of the client for the settings, and the credentials have passed. -/
theorem plan_eq {peer : Web.Peer} {clock : Clock} {plan : Plan Unit}
    (planned : o.plan peer clock graph = .ok plan)
    : ∃ settings,
        plan = (Client.ofSettings settings).plan settings peer clock graph
        ∧ settings.createGraph = !o.skipCreate
        ∧ (o.skipCreate = false → graph.ensureCredentials = .ok ()) := by
  obtain ⟨_, usable, planned⟩ := Except.exists_of_bind_eq_ok planned
  obtain ⟨settings, built, planned⟩ := Except.exists_of_bind_eq_ok planned
  refine ⟨settings, (Except.ok.inj planned).symm, createGraph_of_settings built, ?_⟩
  intro registers
  rw [ensureUsable, registers] at usable
  cases checked : graph.ensureCredentials with
  | ok _ => rfl
  | error violation =>
      rw [checked] at usable
      cases usable

-----------------------------------------------------------------------------------------
-- What is sent, refused and shown
-----------------------------------------------------------------------------------------

/-- Every request carries no graph or registers the one that is asked for, whose credentials have
passed; by cases on how far the command gets before the run.
-/
theorem carryOut_registers_usable (o : Options) (peer : Web.Peer) (clock : Clock) (tree : Tree)
    : ∀ request ∈ (o.carryOut peer clock ⟨tree, ⟨(), .none⟩, []⟩).2.outside.traffic.taken,
        request.Plain
        ∨ ∃ graph,
            o.AsksFor tree graph ∧ o.printGraph = false ∧ o.skipCreate = false
            ∧ (∀ policy ∈ graph.policies, Graph.keyUsable policy.params.key = true)
            ∧ request.method = .post ∧ request.graph? = some graph := by
  intro request member
  unfold carryOut at member
  cases built : o.buildGraph tree with
  | error refusal => simp [built, Web.Traffic.none] at member
  | ok graph =>
      cases shown : o.printGraph with
      | true => simp [built, shown, Web.Traffic.none] at member
      | false =>
          cases planned : o.plan peer clock graph with
          | error refusal => simp [built, shown, planned, Web.Traffic.none] at member
          | ok plan =>
              obtain ⟨settings, rfl, wanted, usable⟩ := plan_eq planned
              obtain ⟨requests, moments, taken, _, sent, _⟩ := Run.carryOut_registers
                (Client.ofSettings settings) settings peer clock graph o.input o.output
                (⟨tree, ⟨(), .none⟩, []⟩ : Scene Unit)
              simp only [built, shown, planned, Bool.false_eq_true, if_false] at member
              rw [taken] at member
              rcases sent request member with plain | ⟨registered, carried, address, _, registers⟩
              · exact .inl plain
              · have registering : o.skipCreate = false := by simpa [registered] using wanted.symm
                refine .inr ⟨graph, buildGraph_eq_ok_iff.mp built, rfl, registering, ?_,
                  registers.posts.1, carried⟩
                exact (Graph.ensureCredentials_eq_ok_iff graph).mp (usable registering)

/-- A graph that is to be registered without a usable credential is refused before anything is
sent.
-/
theorem carryOut_refuses {o : Options} {graph : Graph} {policy : Policy} (peer : Web.Peer)
    (clock : Clock) (scene : Scene Unit) (asked : o.AsksFor scene.tree graph)
    (runs : o.printGraph = false) (registers : o.skipCreate = false)
    (member : policy ∈ graph.policies) (unusable : Graph.keyUsable policy.params.key = false)
    : ∃ refusal : Refusal, o.carryOut peer clock scene = (⟨1, "", refusal.report⟩, scene) := by
  cases planned : o.plan peer clock graph with
  | error refusal =>
      refine ⟨refusal, ?_⟩
      simp only [carryOut, buildGraph_eq_ok_iff.mpr asked, runs, planned]
      rfl
  | ok plan =>
      obtain ⟨_, _, _, usable⟩ := plan_eq planned
      have passed := (Graph.ensureCredentials_eq_ok_iff graph).mp (usable registers) policy member
      rw [unusable] at passed
      cases passed

/-- A graph that is only to be shown is printed in its YAML form, and nothing else happens. -/
theorem carryOut_shows {o : Options} (peer : Web.Peer) (clock : Clock) (scene : Scene Unit)
    (shows : o.printGraph = true)
    : (o.carryOut peer clock scene).2 = scene
      ∧ ∀ graph, o.AsksFor scene.tree graph
        → (o.carryOut peer clock scene).1 = ⟨0, graph.toYaml, ""⟩ := by
  unfold carryOut
  constructor
  · cases o.buildGraph scene.tree <;> simp [shows]
  · intro graph asked
    simp only [buildGraph_eq_ok_iff.mpr asked, shows, if_true]

end Options

/-- The command never registers an unusable graph. Whatever it sends carries no graph, or is a post
whose body is the graph that the command line and the environment ask for; that graph keeps all
rules, and each of its policies has a credential that the service can use. When a graph without such
a credential would be registered, the command fails before it sends or changes anything. When the
graph is only to be shown, nothing is sent or changed either, no credential is needed, and what is
printed is read back as the graph that is asked for.
-/
theorem run_registers_usable (help : String) (args : List String) (env : List (String × String))
    (peer : Web.Peer) (clock : Clock) (tree : Tree)
    : let outcome := run help args env peer clock tree
      let start : Scene Unit := ⟨tree, ⟨(), .none⟩, []⟩
      (∀ request ∈ outcome.2.outside.traffic.taken,
        request.Plain
        ∨ ∃ options graph,
            Asks args env options
            ∧ options.AsksFor tree graph
            ∧ options.printGraph = false ∧ options.skipCreate = false
            ∧ graph.validate = .ok ()
            ∧ (∀ policy ∈ graph.policies,
                Text.trimmed policy.params.key ≠ ""
                ∧ Text.trimmed policy.params.key ≠ Graph.placeholderKey)
            ∧ request.method = .post ∧ request.graph? = some graph)
      ∧ ∀ options, Asks args env options
        → (∀ graph policy,
            options.AsksFor tree graph
            → options.printGraph = false → options.skipCreate = false
            → policy ∈ graph.policies
            → (Text.trimmed policy.params.key = ""
              ∨ Text.trimmed policy.params.key = Graph.placeholderKey)
            → outcome.1.code ≠ 0 ∧ outcome.2 = start)
          ∧ (options.printGraph = true
            → outcome.2 = start
              ∧ ∀ graph, options.AsksFor tree graph
                → outcome.1.code = 0 ∧ Graph.ofYaml outcome.1.stdout = .ok graph) := by
  intro outcome start
  refine ⟨?_, ?_⟩
  · intro request member
    cases parsed : Given.ofArguments args env with
    | error stop => simp [outcome, run, parsed, Web.Traffic.none] at member
    | ok given =>
        have goes : outcome = given.options.carryOut peer clock start := by
          simp only [outcome, run, parsed, start]
        rw [goes] at member
        rcases given.options.carryOut_registers_usable peer clock tree request member with
          plain | ⟨graph, asked, runs, registers, usable, posted, carried⟩
        · exact .inl plain
        · refine .inr ⟨given.options, graph, asks_iff.mpr ⟨given, parsed, rfl⟩, asked, runs,
            registers, asked.validate, ?_, posted, carried⟩
          exact fun policy member => (Graph.keyUsable_iff _).mp (usable policy member)
  · intro options asks
    obtain ⟨given, parsed, rfl⟩ := asks_iff.mp asks
    have goes : outcome = given.options.carryOut peer clock start := by
      simp only [outcome, run, parsed, start]
    rw [goes]
    refine ⟨?_, ?_⟩
    · intro graph policy asked runs registers member unusable
      have fails : Graph.keyUsable policy.params.key = false := by
        rw [← Bool.not_eq_true, Graph.keyUsable_iff]
        tauto
      obtain ⟨refusal, ends⟩ :=
        Options.carryOut_refuses peer clock start asked runs registers member fails
      rw [ends]
      exact ⟨Nat.one_ne_zero, rfl⟩
    · intro shows
      obtain ⟨untouched, printed⟩ := Options.carryOut_shows peer clock start shows
      refine ⟨untouched, fun graph asked => ?_⟩
      rw [printed graph asked]
      exact ⟨rfl, Graph.ofYaml_toYaml_of_valid asked.validate⟩

/-- A graph of one policy with this model and this credential. -/
def onePolicy (model key : String) : Graph :=
  ⟨"g", none, [⟨"x", "p", ⟨model, key, "i"⟩, none⟩]⟩

/-- A tree with one file, which holds a graph. -/
def oneGraph : Tree :=
  ⟨[], [(["g.yaml".toList], .file (Text.Utf8.encode (onePolicy "old" "secret").toYaml))]⟩

theorem load_oneGraph : Graph.load oneGraph "g.yaml" = .ok (onePolicy "old" "secret") := by
  have read (content : Bytes)
      : Tree.read ⟨[], [(["g.yaml".toList], .file content)]⟩ "g.yaml" = .ok content := by
    rfl
  unfold Graph.load oneGraph
  rw [read, Except.ok_mapError, Except.ok_bind, Text.Utf8.decode_encode]
  exact Graph.ofYaml_toYaml_of_valid (by decide)

/-- A server that refuses everything. -/
def refusingPeer : Web.Peer :=
  fun _ => .answer ⟨500, [], [], .whole⟩

/-- An environment that says something for a command line that does not. -/
def surroundings : List (String × String) :=
  [("PDF_TRANSLATE_MODEL", "other"), ("OPENAI_API_KEY", "secret"),
    ("PDF_TRANSLATE_LANGUAGE", "German")]

/-- Arguments that ask for the graph in that file with another model, to be shown. -/
def showingArguments : List String :=
  ["--print-graph", "--graph", "g.yaml", "--model=m"]

/-- What these arguments give in that environment. -/
def showingGiven : Given :=
  [(.printGraph, .truth true), (.graph, .text "g.yaml"), (.model, .text "m"),
    (.key, .text "secret"), (.language, .text "German")]

/-- Arguments that ask for the built-in graph in another language. -/
def sendingArguments : List String :=
  ["doc.pdf", "--language", "Spanish", "--api-key", "k", "-q"]

/-- What these arguments give in that environment. -/
def sendingGiven : Given :=
  [(.input, .text "doc.pdf"), (.language, .text "Spanish"), (.key, .text "k"),
    (.quiet, .truth true), (.model, .text "other")]

/-- With these arguments something is posted that is no form. -/
theorem run_sends
    : ∃ request ∈ (run "" sendingArguments surroundings refusingPeer (.exact (2 ^ 80))
        oneDocument.tree).2.outside.traffic.taken, ¬ request.Plain := by
  have sends : (run "" sendingArguments surroundings refusingPeer (.exact (2 ^ 80))
      oneDocument.tree).2.outside.traffic.taken.any (fun request =>
        request.method == .post && !request.payload.isForm) = true := by
    decide +kernel
  obtain ⟨request, member, posted⟩ := List.any_eq_true.mp sends
  refine ⟨request, member, fun plain => ?_⟩
  cases plain <;> cases posted

/-- Without a credential the built-in graph is shown, but not registered. Flags come before
variables, in a graph from a file that is shown and in the built-in graph that is registered.
-/
theorem run_registers_usable_of_flags_and_variables
    : let bare := run "" ["--print-graph"] [] Web.unreachable (.exact 1) ⟨[], []⟩
      let refused := run "" ["doc.pdf"] [] Web.unreachable (.exact 1) ⟨[], []⟩
      let shown := run "" showingArguments surroundings Web.unreachable (.exact 1) oneGraph
      let sent :=
        run "" sendingArguments surroundings refusingPeer (.exact (2 ^ 80)) oneDocument.tree
      bare.1.code = 0
      ∧ Graph.ofYaml bare.1.stdout = .ok (.standard Graph.standardModel Graph.placeholderKey)
      ∧ refused.1.code ≠ 0 ∧ refused.2 = ⟨⟨[], []⟩, ⟨(), .none⟩, []⟩
      ∧ shown.1.code = 0 ∧ Graph.ofYaml shown.1.stdout = .ok (onePolicy "m" "secret")
      ∧ ∃ request ∈ sent.2.outside.traffic.taken,
          request.method = .post
          ∧ request.graph? = some (Graph.forLanguage "Spanish" "other" "k") := by
  have asks {args : List String} {env : List (String × String)} (given : Given)
      (parsed : Given.ofArguments args env = .ok given) : Asks args env given.options :=
    asks_iff.mpr ⟨given, parsed, rfl⟩
  have standard (given : Given) (silent : given.options.graph = none)
      (plain : given.options.model = none ∧ given.options.key = none)
      (french : given.options.language = "French")
      : given.options.AsksFor ⟨[], []⟩ (.standard Graph.standardModel Graph.placeholderKey) := by
    refine ⟨Graph.forLanguage "French" Graph.standardModel Graph.placeholderKey, ?_, ?_⟩
    · rw [silent, french]
    · rw [plain.1, plain.2]
      decide +kernel
  obtain ⟨bareCode, barePrinted⟩ :=
    (((run_registers_usable "" ["--print-graph"] [] Web.unreachable (.exact 1) ⟨[], []⟩).2 _
      (asks [(.printGraph, .truth true)] (by decide +kernel))).2 rfl).2 _
        (standard _ rfl ⟨rfl, rfl⟩ rfl)
  obtain ⟨fails, untouched⟩ :=
    ((run_registers_usable "" ["doc.pdf"] [] Web.unreachable (.exact 1) ⟨[], []⟩).2 _
      (asks [(.input, .text "doc.pdf")] (by decide +kernel))).1 _ _
        (standard _ rfl ⟨rfl, rfl⟩ rfl) rfl rfl (List.mem_singleton_self _)
        (.inr (by decide +kernel))
  have filled : showingGiven.options.AsksFor oneGraph (onePolicy "m" "secret") :=
    ⟨onePolicy "old" "secret", load_oneGraph, rfl⟩
  obtain ⟨shownCode, shownPrinted⟩ :=
    (((run_registers_usable "" showingArguments surroundings Web.unreachable (.exact 1)
      oneGraph).2 _ (asks showingGiven (by decide +kernel))).2 rfl).2 _ filled
  refine ⟨bareCode, barePrinted, fails, untouched, shownCode, shownPrinted, ?_⟩
  obtain ⟨request, member, other⟩ := run_sends
  rcases (run_registers_usable "" sendingArguments surroundings refusingPeer (.exact (2 ^ 80))
    oneDocument.tree).1 request member
    with plain | ⟨options, graph, asked, wants, _, _, _, _, posted, carried⟩
  · exact absurd plain other
  · obtain ⟨given, parsed, rfl⟩ := asks_iff.mp asked
    have same : Given.ofArguments sendingArguments surroundings = .ok sendingGiven := by
      decide +kernel
    obtain rfl : sendingGiven = given := Except.ok.inj (same.symm.trans parsed)
    obtain ⟨base, rfl, rfl⟩ := wants
    exact ⟨request, member, posted, carried⟩

end CommandLine
end DocPipeline
