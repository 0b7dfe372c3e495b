import DocPipeline.Proofs.CommandLine.Registration
import DocPipeline.Proofs.Job.WaitLimits
import DocPipeline.Proofs.Preview
import DocPipeline.Proofs.Run.Counts
import DocPipeline.Proofs.Service.Address

/-! What the command prints. A run that delivers prints its delivery in the form that is asked for,
and leaves the whole text in its file whatever is printed. A run that fails prints nothing but what
is wrong, so nothing of it is taken for a text.
-/

namespace DocPipeline

namespace Run

variable {σ : Type} {plan : Plan σ} {input : String} {scene last : Scene σ} {delivery : Delivery}

/-- A run that delivers has delivered before its file was written, and has written all of the text;
by cases on whether there is a file.
-/
theorem carryOut_delivers {output : Option String} (sound : scene.tree.Sound)
    (done : (carryOut plan input output).outcome scene = (.ok delivery, last))
    : (∃ between, (deliver plan input).outcome scene = (.ok delivery, between))
      ∧ ∀ path, output = some path
        → last.tree.read path = .ok (Text.Utf8.encode delivery.text) := by
  cases output with
  | none => exact ⟨⟨last, done⟩, nofun⟩
  | some path =>
      have kept := deliver_becomes plan input scene sound
      rcases ended : (deliver plan input).outcome scene with ⟨result, between⟩
      rw [ended] at kept
      cases result with
      | error failure =>
          rw [carryOut, deliverTo_outcome_of_error path ended] at done
          cases done
      | ok other =>
          have written := Tree.replace_replaced kept.sound path (Text.Utf8.encode other.text)
          dsimp only at written
          rcases replaced : between.tree.replace path (Text.Utf8.encode other.text) with
            ⟨result, after⟩
          rw [replaced] at written
          rw [carryOut, deliverTo_outcome_of_ok ended replaced] at done
          obtain ⟨same, rfl⟩ := Prod.mk.inj done
          cases written with
          | failed reason => cases same
          | done reads =>
              obtain rfl := Except.ok.inj same
              refine ⟨⟨between, rfl⟩, fun _ same => ?_⟩
              obtain rfl := Option.some.inj same
              exact reads

end Run

namespace CommandLine

open Run (oneDocument oneDocument_sound)

-----------------------------------------------------------------------------------------
-- Deliveries
-----------------------------------------------------------------------------------------

namespace Options

variable {o : Options} {delivery : Delivery}

theorem shown_of_json (json : o.json = true) (delivery : Delivery)
    : o.shown delivery = delivery.toJson.pretty ++ "\n" :=
  if_pos json

theorem shown_of_quiet (plain : o.json = false) (quiet : o.quiet = true) (delivery : Delivery)
    : o.shown delivery = "" := by
  simp [shown, plain, quiet]

/-- Without a form of its own a delivery is shown by the first characters of its text, on whole
lines.
-/
theorem shown_of_plain (plain : o.json = false) (loud : o.quiet = false) (delivery : Delivery)
    : ∃ front : String,
        front.toList = delivery.text.toList.take o.previewCount
        ∧ o.shown delivery = if front.toList.getLast? = some '\n' then front else front ++ "\n" :=
  ⟨preview delivery.text o.previewCount, toList_preview _ _, by simp [shown, plain, loud]⟩

/-- The JSON form of a delivery is read back from its lines. -/
theorem readsBack_shown (json : o.json = true) (inRange : delivery.tally.InRange)
    : ReadsBack Delivery.ofJson (o.shown delivery) delivery := by
  rw [ReadsBack, shown_of_json json, Json.ofText_pretty_line delivery.writable_toJson,
    Option.bind_some, Delivery.ofJson_toJson inRange]

end Options

-----------------------------------------------------------------------------------------
-- Runs
-----------------------------------------------------------------------------------------

/-- The arguments ask for a run, which comes to a result and leaves a scene behind. -/
structure Runs (args : List String) (env : List (String × String)) (peer : Web.Peer)
    (clock : Clock) (tree : Tree) (options : Options) (result : Except Failure Delivery)
    (last : Scene Unit) : Prop where
  asked : ∃ given, Given.ofArguments args env = .ok given ∧ given.options = options
  runs : options.printGraph = false
  comes : ∃ graph plan,
    options.buildGraph tree = .ok graph ∧ options.plan peer clock graph = .ok plan
    ∧ (Run.carryOut plan options.input options.output).outcome ⟨tree, ⟨(), .none⟩, []⟩
      = (result, last)

variable {args : List String} {env : List (String × String)} {peer : Web.Peer} {clock : Clock}
  {tree : Tree} {options : Options} {result : Except Failure Delivery} {last : Scene Unit}
  {delivery : Delivery}

/-- What comes of the run is what the command prints and leaves behind. -/
theorem Runs.run_eq (help : String) (runs : Runs args env peer clock tree options result last)
    : run help args env peer clock tree = (options.finish result, last) := by
  obtain ⟨⟨given, parsed, rfl⟩, silent, graph, plan, built, planned, comes⟩ := runs
  simp [run, parsed, Options.carryOut, built, silent, planned, comes]

theorem Runs.inRange (runs : Runs args env peer clock tree options (.ok delivery) last)
    (sound : tree.Sound) (files : tree.Sized) (answers : Web.Sized peer)
    : delivery.tally.InRange := by
  obtain ⟨_, _, graph, plan, _, planned, comes⟩ := runs
  obtain ⟨settings, same, _⟩ := Options.plan_eq planned
  have served : plan.service = (Client.ofSettings settings).service plan.peer := by
    rw [same]
    rfl
  have asks : plan.peer = peer := congrArg Plan.peer same
  obtain ⟨⟨between, delivered⟩, _⟩ := Run.carryOut_delivers sound comes
  exact Run.deliver_inRange served sound files (asks ▸ answers) delivered

theorem Runs.read_output (runs : Runs args env peer clock tree options (.ok delivery) last)
    (sound : tree.Sound) {path : String} (output : options.output = some path)
    : last.tree.read path = .ok (Text.Utf8.encode delivery.text) := by
  obtain ⟨_, _, graph, plan, _, _, comes⟩ := runs
  exact (Run.carryOut_delivers sound comes).2 path output

/-- How a command line ends that can be read: what it asks for is refused, the graph is shown, or
there is a run; by cases on what is settled before the run.
-/
theorem run_cases {given : Given} (parsed : Given.ofArguments args env = .ok given)
    (help : String) (peer : Web.Peer) (clock : Clock) (tree : Tree)
    : ((¬ ∃ result last, Runs args env peer clock tree given.options result last)
        ∧ ∃ refusal : Refusal, (run help args env peer clock tree).1 = ⟨1, "", refusal.report⟩)
      ∨ (given.options.printGraph = true
          ∧ ∃ graph : Graph, (run help args env peer clock tree).1 = ⟨0, graph.toYaml, ""⟩)
      ∨ ∃ result last, Runs args env peer clock tree given.options result last := by
  have goes : run help args env peer clock tree
      = given.options.carryOut peer clock ⟨tree, ⟨(), .none⟩, []⟩ := by
    rw [run, parsed]
  rw [goes]
  unfold Options.carryOut
  cases built : given.options.buildGraph tree with
  | error refusal =>
      refine .inl ⟨?_, refusal, rfl⟩
      rintro ⟨_, _, _, _, graph, _, other, _⟩
      rw [built] at other
      cases other
  | ok graph =>
      cases shows : given.options.printGraph with
      | true => exact .inr (.inl ⟨rfl, graph, rfl⟩)
      | false =>
          cases planned : given.options.plan peer clock graph with
          | error refusal =>
              refine .inl ⟨?_, refusal, ?_⟩
              · rintro ⟨_, _, _, _, other, plan, same, alsoPlanned, _⟩
                obtain rfl := Except.ok.inj (built.symm.trans same)
                rw [planned] at alsoPlanned
                cases alsoPlanned
              · simp only [planned]
                rfl
          | ok plan =>
              exact .inr (.inr
                ⟨_, _, ⟨given, parsed, rfl⟩, shows, graph, plan, built, planned, rfl⟩)

/-- The run comes to a point where the program breaks down. -/
def Breaks (args : List String) (env : List (String × String)) (peer : Web.Peer) (clock : Clock)
    (tree : Tree) (options : Options) : Prop :=
  ∃ failure last, Runs args env peer clock tree options (.error failure) last
    ∧ Wait.IsBreakdown failure

theorem Breaks.code_eq (help : String) (breaks : Breaks args env peer clock tree options)
    : (run help args env peer clock tree).1.code = 101 := by
  obtain ⟨failure, last, runs, breakdown⟩ := breaks
  rw [runs.run_eq, Options.finish, if_pos (Wait.isBreakdown_iff.mpr breakdown)]
  rfl

/-- A command that is to run and delivers nothing breaks down or fails, and prints nothing. -/
theorem run_of_undelivered {given : Given} (parsed : Given.ofArguments args env = .ok given)
    (help : String) (silent : given.options.printGraph = false)
    (without : ∀ delivery last, ¬ Runs args env peer clock tree given.options (.ok delivery) last)
    : let output := (run help args env peer clock tree).1
      (output.code = 1 ∨ output.code = 101)
      ∧ (output.code = 101 ↔ Breaks args env peer clock tree given.options)
      ∧ output.stdout = "" := by
  intro output
  have ends : (output.code = 1 ∨ output.code = 101 ∧ Breaks args env peer clock tree given.options)
      ∧ output.stdout = "" := by
    rcases run_cases parsed help peer clock tree with
      ⟨_, refusal, ends⟩ | ⟨shows, _⟩ | ⟨result, last, runs⟩
    · simp [output, ends]
    · rw [silent] at shows
      cases shows
    · cases result with
      | ok delivery => exact absurd runs (without delivery last)
      | error failure =>
          simp only [output, runs.run_eq, Options.finish]
          split
          · next breakdown =>
              exact ⟨.inr ⟨rfl, failure, last, runs, Wait.isBreakdown_iff.mp breakdown⟩, rfl⟩
          · exact ⟨.inl rfl, rfl⟩
  obtain ⟨fails | ⟨breaks, broken⟩, nothing⟩ := ends
  · exact ⟨.inl fails, ⟨by simp [fails], Breaks.code_eq help⟩, nothing⟩
  · exact ⟨.inr breaks, ⟨fun _ => broken, Breaks.code_eq help⟩, nothing⟩

/-- A command that fails prints nothing, by cases on how it ends. -/
theorem stdout_of_code_ne_zero (help : String)
    (fails : (run help args env peer clock tree).1.code ≠ 0)
    : (run help args env peer clock tree).1.stdout = "" := by
  cases parsed : Given.ofArguments args env with
  | error stop =>
      have goes : (run help args env peer clock tree).1 = stop.output help := by rw [run, parsed]
      rw [goes] at fails ⊢
      cases stop with
      | fault wrong => rfl
      | help | version => exact absurd rfl fails
  | ok given =>
      rcases run_cases parsed help peer clock tree with
        ⟨_, refusal, ends⟩ | ⟨_, graph, ends⟩ | ⟨result, last, runs⟩
      · rw [ends]
      · rw [ends] at fails
        exact absurd rfl fails
      · rw [runs.run_eq] at fails ⊢
        cases result with
        | error failure =>
            rw [Options.finish]
            split <;> rfl
        | ok delivery => exact absurd rfl fails

/-- What the command prints. When its run delivers, it prints the JSON form of the delivery on lines
of its own, which is read back as the delivery; or the first characters of the text, with the end of
a line behind them unless they end in one; or nothing. The file for the text holds all of it
whatever is printed. When the run delivers nothing, or there is none, the command fails, with a code
of its own where the program breaks down, and a command that fails prints nothing. Writing to
standard output is taken to succeed.
-/
theorem run_prints (help : String) (args : List String) (env : List (String × String))
    (peer : Web.Peer) (clock : Clock) {tree : Tree} (sound : tree.Sound)
    : let outcome := run help args env peer clock tree
      (∀ options delivery last, Runs args env peer clock tree options (.ok delivery) last
        → outcome.1.code = 0
          ∧ (options.json = true
            → outcome.1.stdout = delivery.toJson.pretty ++ "\n"
              ∧ (tree.Sized → Web.Sized peer
                → ReadsBack Delivery.ofJson outcome.1.stdout delivery))
          ∧ (options.json = false → options.quiet = false
            → ∃ front : String,
                front.toList = delivery.text.toList.take options.previewCount
                ∧ outcome.1.stdout
                  = if front.toList.getLast? = some '\n' then front else front ++ "\n")
          ∧ (options.json = false → options.quiet = true → outcome.1.stdout = "")
          ∧ ∀ path, options.output = some path
            → outcome.2.tree.read path = .ok (Text.Utf8.encode delivery.text))
      ∧ (∀ given, Given.ofArguments args env = .ok given → given.options.printGraph = false
        → (∀ delivery last, ¬ Runs args env peer clock tree given.options (.ok delivery) last)
        → (outcome.1.code = 1 ∨ outcome.1.code = 101)
          ∧ (outcome.1.code = 101 ↔ Breaks args env peer clock tree given.options)
          ∧ outcome.1.stdout = "")
      ∧ (outcome.1.code ≠ 0 → outcome.1.stdout = "") := by
  intro outcome
  refine ⟨?_, fun given parsed => run_of_undelivered parsed help, stdout_of_code_ne_zero help⟩
  intro options delivery last runs
  have goes : outcome = (options.finish (.ok delivery), last) := runs.run_eq help
  rw [goes]
  refine ⟨rfl, fun json => ⟨Options.shown_of_json json delivery, fun files answers => ?_⟩,
    fun plain loud => Options.shown_of_plain plain loud delivery,
    fun plain quiet => Options.shown_of_quiet plain quiet delivery,
    fun path output => runs.read_output sound output⟩
  exact Options.readsBack_shown json (runs.inRange sound files answers)

/-- A server that takes a document, and has made a short text of it. -/
def shortPeer : Web.Peer := fun number =>
  let bodies :=
    ["\x7b\"content_id\": \"c\"\x7d",
      "\x7b\"tasks\": [\x7b\"id\": \"t\", \"outcome\": \"Success\"\x7d]\x7d",
      "\x7b\"content_tree_metadata\": [\x7b\"id\": \"a\", \"source\": \"pdf_to_french\"\x7d]\x7d",
      "Hi"]
  .answer ⟨200, [], Text.Utf8.encode (bodies.getD number ""), .whole⟩

theorem shortPeer_sized : Web.Sized shortPeer := by
  intro number answer reply
  obtain rfl := Web.Reply.answer.inj reply
  match number with
  | 0 | 1 | 2 | 3 => decide +kernel
  | number + 4 => exact Nat.two_pow_pos 64

theorem oneDocument_sized : oneDocument.tree.Sized := by
  intro place content found
  unfold Tree.lookup at found
  split at found
  · cases found
  · obtain ⟨⟨_, entry⟩, stands, rfl⟩ := Option.map_eq_some_iff.mp found
    have member := List.mem_of_find?_eq_some stands
    obtain ⟨_, same⟩ := Prod.mk.inj (List.mem_singleton.mp member)
    obtain rfl := Entry.file.inj same
    decide

/-- Arguments for a run over that server, with and without the form that is for programs. -/
def shortArguments (json : Bool) : List String :=
  ["doc.pdf", "--server", "http://h", "--skip-graph-create", "--preview-chars", "1", "--output",
    "out.txt", "--no-progress"] ++ if json then ["--json"] else []

/-- What these arguments give. -/
def shortGiven (json : Bool) : Given :=
  [(.input, .text "doc.pdf"), (.server, .text "http://h"), (.skipCreate, .truth true),
    (.previewCount, .number 1), (.output, .text "out.txt"), (.noProgress, .truth true)]
    ++ if json then [(.json, .truth true)] else []

/-- What is planned with these arguments. -/
def shortPlan : Plan Unit :=
  let settings := (shortGiven false).options.settingSteps.foldl Settings.set .standard
  ⟨settings, .standard Graph.standardModel Graph.placeholderKey,
    (Client.ofSettings settings).service shortPeer, shortPeer, .exact (2 ^ 80)⟩

/-- The run delivers its text. -/
theorem shortPlan_delivers
    : ((Run.carryOut shortPlan "doc.pdf" (some "out.txt")).outcome
        ⟨oneDocument.tree, ⟨(), .none⟩, []⟩).1.map Delivery.text = .ok "Hi" := by
  decide +kernel

/-- Both command lines ask for that run. -/
theorem shortArguments_run (json : Bool)
    : ∃ delivery last,
        Runs (shortArguments json) [] shortPeer (.exact (2 ^ 80)) oneDocument.tree
          (shortGiven json).options (.ok delivery) last
        ∧ delivery.text = "Hi" := by
  have text := shortPlan_delivers
  rcases comes : (Run.carryOut shortPlan "doc.pdf" (some "out.txt")).outcome
    ⟨oneDocument.tree, ⟨(), .none⟩, []⟩ with ⟨result, last⟩
  rw [comes] at text
  cases result with
  | error failure => cases text
  | ok delivery =>
      have parsed : Given.ofArguments (shortArguments json) [] = .ok (shortGiven json) := by
        cases json <;> decide +kernel
      have built : (shortGiven json).options.buildGraph oneDocument.tree
          = .ok (.standard Graph.standardModel Graph.placeholderKey) := by
        cases json <;> decide +kernel
      have planned : (shortGiven json).options.plan shortPeer (.exact (2 ^ 80))
          (.standard Graph.standardModel Graph.placeholderKey) = .ok shortPlan := by
        cases json <;> rfl
      have silent : (shortGiven json).options.printGraph = false := by cases json <;> rfl
      have named : (shortGiven json).options.input = "doc.pdf"
          ∧ (shortGiven json).options.output = some "out.txt" := by cases json <;> exact ⟨rfl, rfl⟩
      refine ⟨delivery, last, ⟨⟨shortGiven json, parsed, rfl⟩, silent, _, shortPlan, built, planned,
        ?_⟩, Except.ok.inj text⟩
      rw [named.1, named.2, comes]

/-- A run that delivers prints the one character that is wanted, or its delivery in JSON, and the
whole text is in its file.
-/
theorem run_prints_of_short
    : let outcome (json : Bool) :=
        run "" (shortArguments json) [] shortPeer (.exact (2 ^ 80)) oneDocument.tree
      (outcome false).1.stdout = "H\n"
      ∧ (outcome false).2.tree.read "out.txt" = .ok (Text.Utf8.encode "Hi")
      ∧ ∃ delivery : Delivery,
          delivery.text = "Hi"
          ∧ (outcome true).1.stdout = delivery.toJson.pretty ++ "\n"
          ∧ ReadsBack Delivery.ofJson (outcome true).1.stdout delivery := by
  intro outcome
  obtain ⟨plain, last, runs, text⟩ := shortArguments_run false
  obtain ⟨delivery, _, runsToo, textToo⟩ := shortArguments_run true
  obtain ⟨_, _, prints, _, file⟩ :=
    (run_prints "" (shortArguments false) [] shortPeer (.exact (2 ^ 80)) oneDocument_sound).1 _ _ _
      runs
  obtain ⟨_, json, _⟩ :=
    (run_prints "" (shortArguments true) [] shortPeer (.exact (2 ^ 80)) oneDocument_sound).1 _ _ _
      runsToo
  obtain ⟨whole, reads⟩ := json rfl
  obtain ⟨front, characters, shown⟩ := prints rfl rfl
  rw [text] at characters file
  obtain rfl : front = "H" := String.toList_inj.mp characters
  exact ⟨shown, file "out.txt" rfl, delivery, textToo, whole,
    reads oneDocument_sized shortPeer_sized⟩

end CommandLine
end DocPipeline
