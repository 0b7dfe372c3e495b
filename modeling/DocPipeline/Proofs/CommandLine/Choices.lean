import DocPipeline.Proofs.CommandLine.Reading

/-! What is chosen. Variables of the environment are taken as if they were said behind the command
line, where it is silent. So every option is what the command line says, or else what the
environment says, or else what is standard.
-/

namespace DocPipeline.CommandLine

-----------------------------------------------------------------------------------------
-- Environment variables
-----------------------------------------------------------------------------------------

section Variables

variable {env : List (String × String)}

/-- What the environment says of an argument. -/
def Argument.inEnvironment (argument : Argument) (env : List (String × String)) : Option String :=
  argument.variableName?.bind (List.lookup · env)

/-- What the environment says of those arguments that are not taken yet. -/
def unsaid (taken : List Argument) (env : List (String × String)) (arguments : List Argument)
    : Said :=
  arguments.filterMap fun argument =>
    if argument ∈ taken then none else (argument.inEnvironment env).map ((argument, ·))

/-- What is said, and behind it what the environment says of the rest. -/
def allSaid (said : Said) (env : List (String × String)) : Said :=
  said ++ unsaid (said.map Prod.fst) env Argument.all

theorem unsaid_cons_of_mem {taken arguments : List Argument} {argument : Argument}
    (member : argument ∈ taken)
    : unsaid taken env (argument :: arguments) = unsaid taken env arguments := by
  simp [unsaid, member]

theorem unsaid_cons_of_notMem {taken arguments : List Argument} {argument : Argument}
    (new : argument ∉ taken)
    : unsaid taken env (argument :: arguments)
      = (argument.inEnvironment env).toList.map ((argument, ·)) ++ unsaid taken env arguments := by
  rw [unsaid, List.filterMap_cons, if_neg new]
  cases argument.inEnvironment env <;> rfl

/-- Another argument that is taken does not matter to those that are not it. -/
theorem unsaid_append {taken arguments : List Argument} {argument : Argument}
    (other : argument ∉ arguments)
    : unsaid (taken ++ [argument]) env arguments = unsaid taken env arguments := by
  refine List.filterMap_congr fun next member => ?_
  have apart : next ≠ argument := fun same => other (same ▸ member)
  simp [apart]

/-- Variables are taken as if they were said behind the command line; by induction on the arguments
that are looked up.
-/
theorem Reading.foldlM_fromVariable_eq_ok_iff {r r' : Reading} {arguments : List Argument}
    (once : arguments.Nodup)
    : arguments.foldlM (Reading.fromVariable env) r = .ok r'
      ↔ ∃ given, Takes r.given (unsaid (r.given.map Prod.fst) env arguments) given
          ∧ r' = { r with given := given } := by
  induction arguments generalizing r with
  | nil =>
      constructor
      · intro same
        obtain rfl := Except.ok.inj same
        exact ⟨r.given, .nothing _, rfl⟩
      · rintro ⟨_, ⟨⟩, rfl⟩
        rfl
  | cons argument arguments ih =>
      obtain ⟨other, once⟩ := List.nodup_cons.mp once
      rw [List.foldlM_cons, Except.bind_eq_ok_iff, Reading.fromVariable]
      by_cases member : argument ∈ r.given.map Prod.fst
      · have taken : (r.given.value? argument).isSome = true := by
          rw [← Option.ne_none_iff_isSome, ne_eq, Given.value?_eq_none_iff]
          exact not_not.mpr member
        simp only [taken, if_true, unsaid_cons_of_mem member, Except.ok.injEq, exists_eq_left',
          ih once]
      · have fresh : (r.given.value? argument).isSome = false := by
          rw [Given.value?_eq_none_iff.mpr member]
          rfl
        have looked : argument.variableName?.bind (List.lookup · env)
            = argument.inEnvironment env := rfl
        rw [unsaid_cons_of_notMem member]
        simp only [fresh, Bool.false_eq_true, if_false, looked]
        cases argument.inEnvironment env with
        | none => simp [ih once]
        | some s =>
            dsimp only [Option.toList_some, List.map_cons, List.map_nil]
            constructor
            · rintro ⟨between, taken, rest⟩
              obtain ⟨given, front, rfl⟩ := Reading.take_eq_ok_iff.mp taken
              obtain ⟨after, back, rfl⟩ := (ih once).mp rest
              have keys : given.map Prod.fst = r.given.map Prod.fst ++ [argument] := front.keys
              rw [keys, unsaid_append other] at back
              exact ⟨after, front.append back, rfl⟩
            · rintro ⟨after, takes, rfl⟩
              obtain ⟨given, front, back⟩ := takes.split
              have keys : given.map Prod.fst = r.given.map Prod.fst ++ [argument] := front.keys
              rw [← unsaid_append other, ← keys] at back
              exact ⟨_, Reading.take_eq_ok_iff.mpr ⟨given, front, rfl⟩,
                (ih once).mpr ⟨after, back, rfl⟩⟩

theorem nodup_all : Argument.all.Nodup := by
  decide

/-- Arguments contradict each other exactly if both of the two that do are there. -/
theorem contradicting_iff {given : Given} (once : (given.map Prod.fst).Nodup)
    : (∃ first second rest, Reading.contradicting given = first :: second :: rest)
      ↔ .reuseGraph ∈ given.map Prod.fst ∧ .skipCreate ∈ given.map Prod.fst := by
  have different : (Reading.contradicting given).Nodup := once.filter _
  have member (argument : Argument) : argument ∈ Reading.contradicting given
      ↔ argument ∈ given.map Prod.fst
        ∧ (argument = .reuseGraph ∨ argument = .skipCreate) := by
    simp [Reading.contradicting]
  constructor
  · rintro ⟨first, second, rest, found⟩
    rw [found] at different member
    have one := (member first).mp (by simp)
    have two := (member second).mp (by simp)
    have apart : first ≠ second := by
      rintro rfl
      simp at different
    rcases one with ⟨oneIn, rfl | rfl⟩ <;> rcases two with ⟨twoIn, rfl | rfl⟩
    · exact absurd rfl apart
    · exact ⟨oneIn, twoIn⟩
    · exact ⟨twoIn, oneIn⟩
    · exact absurd rfl apart
  · rintro ⟨reuses, skips⟩
    have one := (member .reuseGraph).mpr ⟨reuses, .inl rfl⟩
    have two := (member .skipCreate).mpr ⟨skips, .inr rfl⟩
    match found : Reading.contradicting given with
    | [] => simp [found] at one
    | [first] =>
        rw [found, List.mem_singleton] at one two
        cases one.trans two.symm
    | first :: second :: rest => exact ⟨first, second, rest, rfl⟩

/-- What is given, unless it contradicts itself. -/
def Given.agreeing (given : Given) : Except Stop Given :=
  match Reading.contradicting given with
  | first :: second :: _ => .error (.fault (.conflict first second))
  | _ => .ok given

theorem Given.agreeing_eq_ok_iff {given same : Given} (once : (given.map Prod.fst).Nodup)
    : given.agreeing = .ok same
      ↔ given = same
        ∧ ¬ (.reuseGraph ∈ given.map Prod.fst ∧ .skipCreate ∈ given.map Prod.fst) := by
  rw [← contradicting_iff once, agreeing]
  split
  · next first second rest found => simp [found]
  · next others =>
      have agrees : ¬ ∃ first second rest,
          Reading.contradicting given = first :: second :: rest :=
        fun ⟨first, second, rest, found⟩ => others first second rest found
      simp [agrees]

/-- A command line is accepted exactly if what it says, and what the environment says of the other
arguments, can be taken and does not contradict itself.
-/
theorem Given.ofArguments_eq_ok_iff {args : List String} {given : Given}
    : Given.ofArguments args env = .ok given
      ↔ ∃ said, Says args said
          ∧ Takes [] (allSaid said env) given
          ∧ ¬ (.reuseGraph ∈ given.map Prod.fst ∧ .skipCreate ∈ given.map Prod.fst) := by
  have stages : Given.ofArguments args env
      = Reading.start.through args >>= fun r =>
          Argument.all.foldlM (Reading.fromVariable env) { r with pending := none } >>= fun r =>
            r.given.agreeing := by
    simp only [Given.ofArguments, Reading.through, bind_assoc]
    rfl
  rw [stages]
  simp only [Except.bind_eq_ok_iff, Reading.foldlM_fromVariable_eq_ok_iff nodup_all]
  constructor
  · rintro ⟨r, read, _, ⟨after, back, rfl⟩, agrees⟩
    obtain ⟨said, told, front⟩ := Reading.gives_start_iff.mp ⟨r, read, rfl⟩
    have keys : r.given.map Prod.fst = said.map Prod.fst := front.keys
    rw [keys] at back
    have takes := front.append back
    obtain ⟨rfl, consistent⟩ := (agreeing_eq_ok_iff (takes.nodup .nil)).mp agrees
    exact ⟨said, told, takes, consistent⟩
  · rintro ⟨said, told, takes, consistent⟩
    obtain ⟨between, front, back⟩ := takes.split
    obtain ⟨r, read, rfl⟩ := Reading.gives_start_iff.mpr ⟨said, told, front⟩
    have keys : r.given.map Prod.fst = said.map Prod.fst := front.keys
    rw [← keys] at back
    exact ⟨r, read, _, ⟨given, back, rfl⟩,
      (agreeing_eq_ok_iff (takes.nodup .nil)).mpr ⟨rfl, consistent⟩⟩

-----------------------------------------------------------------------------------------
-- Choices
-----------------------------------------------------------------------------------------

/-- The text that is chosen for an argument: the one that is said, or else the one in the
environment.
-/
def chosen (said : Said) (env : List (String × String)) (argument : Argument) : Option String :=
  (said.lookup argument).or (argument.inEnvironment env)

/-- Each argument is said once, what is chosen has values that fit, and the graph that is there
already is not both reused and passed over.
-/
structure Accepted (said : Said) (env : List (String × String)) : Prop where
  once : (said.map Prod.fst).Nodup
  fits : ∀ argument s, chosen said env argument = some s
    → ∃ value, Value.ofText argument s = .ok value
  consistent : ¬ ((chosen said env .reuseGraph).isSome ∧ (chosen said env .skipCreate).isSome)

/-- A number is the one that the text spells, and without a text the standard one. -/
def IsNumber (text : Option String) (standard n : Nat) : Prop :=
  match text with
  | some s => Value.numberOf s.toList = .ok n
  | none => n = standard

/-- The options are what is chosen, with what is standard where nothing is. -/
structure Chooses (said : Said) (env : List (String × String)) (o : Options) : Prop where
  input : o.input = (chosen said env .input).getD standardInput
  server : o.server = (chosen said env .server).getD Settings.standardServer
  space : o.space = (chosen said env .space).getD Settings.standardSpace
  graph : o.graph = chosen said env .graph
  model : o.model = chosen said env .model
  key : o.key = chosen said env .key
  language : o.language = (chosen said env .language).getD "French"
  workDir : o.workDir = chosen said env .workDir
  output : o.output = chosen said env .output
  previewCount : IsNumber (chosen said env .previewCount) 1000 o.previewCount
  initialMillis : IsNumber (chosen said env .initialMillis) 500 o.initialMillis
  longestMillis : IsNumber (chosen said env .longestMillis) 10000 o.longestMillis
  timeout : IsNumber (chosen said env .timeout) 600 o.timeout
  downloadTimeout : IsNumber (chosen said env .downloadTimeout) 120 o.downloadTimeout
  requestTimeout : IsNumber (chosen said env .requestTimeout) 60 o.requestTimeout
  printGraph : o.printGraph = true ↔ chosen said env .printGraph = some "true"
  skipCreate : o.skipCreate = true ↔ chosen said env .skipCreate = some "true"
  reuseGraph : o.reuseGraph = true ↔ chosen said env .reuseGraph = some "true"
  json : o.json = true ↔ chosen said env .json = some "true"
  noProgress : o.noProgress = true ↔ chosen said env .noProgress = some "true"
  verbose : o.verbose = true ↔ chosen said env .verbose = some "true"
  quiet : o.quiet = true ↔ chosen said env .quiet = some "true"

/-- The command line, with its environment, asks for these options. -/
def Asks (args : List String) (env : List (String × String)) (o : Options) : Prop :=
  ∃ said, Says args said ∧ Accepted said env ∧ Chooses said env o

variable {said : Said} {o other : Options} {argument : Argument} {given : Given}

/-- There is one number for each text, by cases on whether there is a text. -/
theorem IsNumber.eq {text : Option String} {standard n m : Nat}
    (one : IsNumber text standard n) (two : IsNumber text standard m) : n = m := by
  cases text with
  | none => exact Eq.trans one two.symm
  | some s => exact Except.ok.inj (Eq.trans one.symm two)

/-- The choices leave nothing open. -/
theorem Chooses.eq (one : Chooses said env o) (two : Chooses said env other) : o = other := by
  have flag {a b : Bool} {p : Prop} (first : a = true ↔ p) (second : b = true ↔ p) : a = b :=
    Bool.eq_iff_iff.mpr (first.trans second.symm)
  cases o
  cases other
  simp only [Options.mk.injEq]
  exact ⟨one.input.trans two.input.symm, one.server.trans two.server.symm,
    one.space.trans two.space.symm, one.graph.trans two.graph.symm,
    one.model.trans two.model.symm, one.key.trans two.key.symm,
    one.language.trans two.language.symm, one.workDir.trans two.workDir.symm,
    one.output.trans two.output.symm, one.previewCount.eq two.previewCount,
    one.initialMillis.eq two.initialMillis, one.longestMillis.eq two.longestMillis,
    one.timeout.eq two.timeout, one.downloadTimeout.eq two.downloadTimeout,
    one.requestTimeout.eq two.requestTimeout, flag one.printGraph two.printGraph,
    flag one.skipCreate two.skipCreate, flag one.reuseGraph two.reuseGraph,
    flag one.json two.json, flag one.noProgress two.noProgress, flag one.verbose two.verbose,
    flag one.quiet two.quiet⟩

namespace Value

variable {s : String} {value : Value}

theorem eq_text_of_ofText (textual : argument.shape = .text ∨ argument.shape = .path)
    (fits : ofText argument s = .ok value) : value = .text s := by
  rcases textual with shape | shape
  · simp only [ofText, shape] at fits
    exact (Except.ok.inj fits).symm
  · simp only [ofText, shape] at fits
    split at fits
    · cases fits
    · exact (Except.ok.inj fits).symm

theorem exists_number_of_ofText (numeric : argument.shape = .number)
    (fits : ofText argument s = .ok value)
    : ∃ n, value = .number n ∧ numberOf s.toList = .ok n := by
  simp only [ofText, numeric] at fits
  split at fits
  · next n spells => exact ⟨n, (Except.ok.inj fits).symm, spells⟩
  · cases fits

/-- A flag holds or not by the text for that, and no other text fits. -/
theorem truth_of_ofText (flag : argument.shape = .flag) (fits : ofText argument s = .ok value)
    : (value = .truth true ∧ s = "true") ∨ (value = .truth false ∧ s = "false") := by
  simp only [ofText, flag] at fits
  split at fits
  · exact .inl ⟨(Except.ok.inj fits).symm, rfl⟩
  · exact .inr ⟨(Except.ok.inj fits).symm, rfl⟩
  · cases fits
  · cases fits

end Value

/-- Every argument that is taken has the value of the text that is chosen for it. -/
structure Given.Holds (given : Given) (said : Said) (env : List (String × String)) : Prop where
  fits : ∀ argument s, chosen said env argument = some s
    → ∃ value, Value.ofText argument s = .ok value
  value?_eq : ∀ argument, given.value? argument
    = (chosen said env argument).bind fun s => (Value.ofText argument s).toOption

namespace Given.Holds

theorem value?_of_chosen {s : String} (holds : given.Holds said env)
    (picked : chosen said env argument = some s)
    : ∃ value, Value.ofText argument s = .ok value ∧ given.value? argument = some value := by
  obtain ⟨value, fits⟩ := holds.fits argument s picked
  refine ⟨value, fits, ?_⟩
  rw [holds.value?_eq, picked, Option.bind_some, fits]
  rfl

theorem value?_of_not_chosen (holds : given.Holds said env)
    (silent : chosen said env argument = none) : given.value? argument = none := by
  rw [holds.value?_eq, silent, Option.bind_none]

/-- The text of an argument is the one that is chosen, by cases on whether one is. -/
theorem text?_eq (holds : given.Holds said env)
    (textual : argument.shape = .text ∨ argument.shape = .path)
    : given.text? argument = chosen said env argument := by
  cases picked : chosen said env argument with
  | none => rw [Given.text?, holds.value?_of_not_chosen picked]
  | some s =>
      obtain ⟨value, fits, found⟩ := holds.value?_of_chosen picked
      rw [Given.text?, found, Value.eq_text_of_ofText textual fits]

theorem isNumber (holds : given.Holds said env) (numeric : argument.shape = .number)
    (standard : Nat)
    : IsNumber (chosen said env argument) standard (given.number argument standard) := by
  cases picked : chosen said env argument with
  | none => simp only [Given.number, holds.value?_of_not_chosen picked, IsNumber]
  | some s =>
      obtain ⟨value, fits, found⟩ := holds.value?_of_chosen picked
      obtain ⟨n, rfl, spells⟩ := Value.exists_number_of_ofText numeric fits
      simpa only [Given.number, found, IsNumber] using spells

theorem flag_iff (holds : given.Holds said env) (flag : argument.shape = .flag)
    : given.flag argument = true ↔ chosen said env argument = some "true" := by
  cases picked : chosen said env argument with
  | none => simp [Given.flag, holds.value?_of_not_chosen picked]
  | some s =>
      obtain ⟨value, fits, found⟩ := holds.value?_of_chosen picked
      rcases Value.truth_of_ofText flag fits with ⟨rfl, rfl⟩ | ⟨rfl, rfl⟩ <;>
        simp [Given.flag, found]

/-- The options of what is given are the ones that are chosen. -/
theorem chooses (holds : given.Holds said env) : Chooses said env given.options where
  input := by rw [← holds.text?_eq (.inl rfl)]; rfl
  server := by rw [← holds.text?_eq (.inl rfl)]; rfl
  space := by rw [← holds.text?_eq (.inl rfl)]; rfl
  graph := holds.text?_eq (.inr rfl)
  model := holds.text?_eq (.inl rfl)
  key := holds.text?_eq (.inl rfl)
  language := by rw [← holds.text?_eq (.inl rfl)]; rfl
  workDir := holds.text?_eq (.inr rfl)
  output := holds.text?_eq (.inr rfl)
  previewCount := holds.isNumber rfl 1000
  initialMillis := holds.isNumber rfl 500
  longestMillis := holds.isNumber rfl 10000
  timeout := holds.isNumber rfl 600
  downloadTimeout := holds.isNumber rfl 120
  requestTimeout := holds.isNumber rfl 60
  printGraph := holds.flag_iff rfl
  skipCreate := holds.flag_iff rfl
  reuseGraph := holds.flag_iff rfl
  json := holds.flag_iff rfl
  noProgress := holds.flag_iff rfl
  verbose := holds.flag_iff rfl
  quiet := holds.flag_iff rfl

end Given.Holds

/-- The environment is looked up for what is not said, by induction on the arguments. -/
theorem lookup_unsaid {taken arguments : List Argument} (argument : Argument)
    : (unsaid taken env arguments).lookup argument
      = if argument ∈ arguments ∧ argument ∉ taken then argument.inEnvironment env else none := by
  induction arguments with
  | nil => simp [unsaid]
  | cons next arguments ih =>
      by_cases member : next ∈ taken
      · rw [unsaid_cons_of_mem member, ih]
        by_cases same : argument = next
        · subst same
          simp [member]
        · simp [same]
      · rw [unsaid_cons_of_notMem member, List.lookup_append, ih]
        by_cases same : argument = next
        · subst same
          cases argument.inEnvironment env <;> simp [member]
        · have apart : (argument == next) = false := by simpa using same
          cases next.inEnvironment env <;> simp [same, List.lookup_cons, apart]

/-- What is said, and behind it what the environment says of the rest, is what is chosen. -/
theorem lookup_allSaid (said : Said) (argument : Argument)
    : (allSaid said env).lookup argument = chosen said env argument := by
  have listed : argument ∈ Argument.all := by cases argument <;> decide
  rw [allSaid, List.lookup_append, lookup_unsaid, chosen]
  cases looked : said.lookup argument with
  | some s => rfl
  | none =>
      have silent : argument ∉ said.map Prod.fst := by
        intro member
        obtain ⟨item, there, rfl⟩ := List.mem_map.mp member
        simpa using List.lookup_eq_none_iff.mp looked item there
      rw [if_pos ⟨listed, silent⟩]

theorem isSome_lookup_iff {items : Said} {argument : Argument}
    : (items.lookup argument).isSome = true ↔ argument ∈ items.map Prod.fst := by
  rw [List.lookup_isSome_iff, List.mem_map]
  refine exists_congr fun item => and_congr_right fun _ => ?_
  rw [beq_iff_eq, eq_comm]

/-- An argument that stands there once is found with its own text. -/
theorem lookup_of_mem {items : Said} (once : (items.map Prod.fst).Nodup) {item : Argument × String}
    (member : item ∈ items) : items.lookup item.1 = some item.2 := by
  obtain ⟨front, back, rfl⟩ := List.append_of_mem member
  refine List.lookup_eq_some_iff.mpr ⟨front, back, rfl, fun other before => ?_⟩
  rw [List.map_append, List.nodup_append] at once
  have apart := once.2.2 other.1 (List.mem_map_of_mem before) item.1 (by simp)
  simpa using apart.symm

theorem notMem_of_mem_unsaid {taken arguments : List Argument} {argument : Argument}
    (member : argument ∈ (unsaid taken env arguments).map Prod.fst) : argument ∉ taken := by
  rw [← isSome_lookup_iff, lookup_unsaid] at member
  intro there
  simp [there] at member

theorem nodup_unsaid (taken : List Argument) {arguments : List Argument} (once : arguments.Nodup)
    : ((unsaid taken env arguments).map Prod.fst).Nodup := by
  rw [unsaid, List.map_filterMap]
  refine once.filterMap fun one other argument first second => ?_
  have same {next : Argument}
      (found : argument ∈ ((if next ∈ taken then none
        else (next.inEnvironment env).map ((next, ·))).map Prod.fst)) : next = argument := by
    split at found
    · cases found
    · obtain ⟨_, inside, rfl⟩ := Option.map_eq_some_iff.mp found
      obtain ⟨_, _, rfl⟩ := Option.map_eq_some_iff.mp inside
      rfl
  exact (same first).trans (same second).symm

/-- No argument is there twice if none is said twice. -/
theorem nodup_allSaid (once : (said.map Prod.fst).Nodup)
    : ((allSaid said env).map Prod.fst).Nodup := by
  rw [allSaid, List.map_append, List.nodup_append]
  refine ⟨once, nodup_unsaid _ nodup_all, fun argument there other behind same => ?_⟩
  exact notMem_of_mem_unsaid behind (same ▸ there)

/-- What is taken has the values of the texts that are chosen. -/
theorem Takes.holds (takes : Takes [] (allSaid said env) given) : given.Holds said env where
  fits := by
    intro argument s picked
    rw [← lookup_allSaid] at picked
    obtain ⟨front, back, spelled, _⟩ := List.lookup_eq_some_iff.mp picked
    exact takes.fits (argument, s) (by rw [spelled]; simp)
  value?_eq := by
    intro argument
    rw [takes.value?_eq, lookup_allSaid]
    rfl

theorem Takes.mem_keys_iff (takes : Takes [] (allSaid said env) given)
    : argument ∈ given.map Prod.fst ↔ (chosen said env argument).isSome = true := by
  rw [takes.keys, List.map_nil, List.nil_append, ← isSome_lookup_iff, lookup_allSaid]

/-- A command line with its environment asks for what is given by it. -/
theorem asks_iff {args : List String}
    : Asks args env o ↔ ∃ given, Given.ofArguments args env = .ok given ∧ given.options = o := by
  constructor
  · rintro ⟨said, told, ⟨once, fits, consistent⟩, chooses⟩
    have alone : ((allSaid said env).map Prod.fst).Nodup := nodup_allSaid once
    have fitting : ∀ item ∈ allSaid said env, ∃ value, Value.ofText item.1 item.2 = .ok value := by
      intro item member
      refine fits item.1 item.2 ?_
      rw [← lookup_allSaid]
      exact lookup_of_mem alone member
    obtain ⟨given, takes⟩ := @Takes.exists_of_fits [] (allSaid said env) alone fitting
    refine ⟨given, Given.ofArguments_eq_ok_iff.mpr ⟨said, told, takes, ?_⟩,
      takes.holds.chooses.eq chooses⟩
    rwa [takes.mem_keys_iff, takes.mem_keys_iff]
  · rintro ⟨given, accepted, rfl⟩
    obtain ⟨said, told, takes, consistent⟩ := Given.ofArguments_eq_ok_iff.mp accepted
    have once : ((allSaid said env).map Prod.fst).Nodup := by
      have keys := takes.keys
      rw [List.map_nil, List.nil_append] at keys
      exact keys ▸ takes.nodup .nil
    rw [allSaid, List.map_append, List.nodup_append] at once
    rw [takes.mem_keys_iff, takes.mem_keys_iff] at consistent
    exact ⟨said, told, ⟨once.1, takes.holds.fits, consistent⟩, takes.holds.chooses⟩

end Variables

end DocPipeline.CommandLine
