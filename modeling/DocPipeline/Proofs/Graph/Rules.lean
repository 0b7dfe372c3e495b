import DocPipeline.Graph.Validity
import DocPipeline.Proofs.Except
import Mathlib.Data.List.Induction
import Mathlib.Data.List.Nodup

/-! The rules of a graph, each said of the graph as a whole, and the rule that is reported. Checking
goes through the policies twice, once for their names and once for their sources, and collects the
names on its way; what it collects are the names of the policies before the one that it looks at.
-/

namespace DocPipeline.Graph

-----------------------------------------------------------------------------------------
-- Rules
-----------------------------------------------------------------------------------------

/-- A rule on names that a policy breaks behind policies with certain names. An empty name comes
before an empty extractor, and both before a name that is used already.
-/
inductive Misnamed (graph : String) (before : List String) (policy : Policy) : Violation → Prop
  | unnamed (empty : Text.isEmptyTrimmed policy.name = true)
    : Misnamed graph before policy (.emptyPolicyName graph)
  | noExtractor (named : Text.isEmptyTrimmed policy.name = false)
    (empty : Text.isEmptyTrimmed policy.extractor = true)
    : Misnamed graph before policy (.emptyExtractor policy.name)
  | repeated (named : Text.isEmptyTrimmed policy.name = false)
    (extractor : Text.isEmptyTrimmed policy.extractor = false) (used : policy.name ∈ before)
    : Misnamed graph before policy (.repeatedName policy.name)

/-- The source of a policy is not among the names before it. -/
inductive Undeclared (before : List String) (policy : Policy) : Violation → Prop
  | unknown {source : String} (reads : policy.source = some source) (absent : source ∉ before)
    : Undeclared before policy (.unknownSource policy.name source)

/-- The first rule that a graph breaks: that it has a name, that it has policies, the rules on names
at the first policy that breaks one, and only if none does the rule on sources, at the first policy
that breaks it.
-/
inductive FirstBroken (graph : Graph) : Violation → Prop
  | unnamed (empty : Text.isEmptyTrimmed graph.name = true) : FirstBroken graph .emptyName
  | noPolicies (named : Text.isEmptyTrimmed graph.name = false) (none : graph.policies = [])
    : FirstBroken graph (.noPolicies graph.name)
  | misnamed {front rest : List Policy} {policy : Policy} {violation : Violation}
    (named : Text.isEmptyTrimmed graph.name = false)
    (parted : graph.policies = front ++ policy :: rest) (earlier : WellNamed front)
    (breaks : Misnamed graph.name (namesOf front) policy violation)
    : FirstBroken graph violation
  | undeclared {front rest : List Policy} {policy : Policy} {violation : Violation}
    (named : Text.isEmptyTrimmed graph.name = false) (wellNamed : WellNamed graph.policies)
    (parted : graph.policies = front ++ policy :: rest) (earlier : ReadsBackward front)
    (breaks : Undeclared (namesOf front) policy violation)
    : FirstBroken graph violation

-----------------------------------------------------------------------------------------
-- Checks that collect names
-----------------------------------------------------------------------------------------

/-- A check that goes through policies and collects their names. At each one it either fails with
the rule that is broken behind the names so far, or it goes on; which names those are matters, and
not their order.
-/
structure Walks (check : List String → List Policy → Except Violation Unit)
    (Breaks : List String → Policy → Violation → Prop) : Prop where
  nil : ∀ seen, check seen [] = .ok ()
  cons
    : ∀ seen policy rest,
        (∃ violation, Breaks seen policy violation
          ∧ check seen (policy :: rest) = .error violation)
        ∨ (∀ violation, ¬ Breaks seen policy violation)
          ∧ check seen (policy :: rest) = check (policy.name :: seen) rest
  unique
    : ∀ {seen policy violation other},
        Breaks seen policy violation → Breaks seen policy other → violation = other
  congr
    : ∀ {before others policy violation},
        (∀ name, name ∈ before ↔ name ∈ others)
        → Breaks before policy violation → Breaks others policy violation

namespace Walks

variable {check : List String → List Policy → Except Violation Unit}
  {Breaks : List String → Policy → Violation → Prop}

theorem goes_on (walks : Walks check Breaks) {seen : List String} {policy : Policy}
    (keeps : ∀ violation, ¬ Breaks seen policy violation) (rest : List Policy)
    : check seen (policy :: rest) = check (policy.name :: seen) rest := by
  rcases walks.cons seen policy rest with ⟨violation, breaks, _⟩ | ⟨_, goes⟩
  · exact absurd breaks (keeps violation)
  · exact goes

/-- It does not matter whether a name is seen or stands in front. -/
theorem mem_seen_iff (front : List Policy) (policy : Policy) (seen : List String) (name : String)
    : name ∈ namesOf front ++ policy.name :: seen ↔ name ∈ namesOf (policy :: front) ++ seen := by
  simp only [namesOf, List.mem_append, List.mem_cons, List.map_cons]
  rw [or_left_comm, or_assoc]

/-- A failure is that of the first policy that breaks a rule behind those before it; by induction on
the policies, of which the first one is seen before all others.
-/
theorem error_iff (walks : Walks check Breaks) {seen : List String} {policies : List Policy}
    {violation : Violation}
    : check seen policies = .error violation
      ↔ ∃ front policy rest, policies = front ++ policy :: rest
          ∧ check seen front = .ok () ∧ Breaks (namesOf front ++ seen) policy violation := by
  induction policies generalizing seen with
  | nil => simp [walks.nil]
  | cons policy rest ih =>
      rcases walks.cons seen policy rest with ⟨found, breaks, fails⟩ | ⟨keeps, goes⟩
      · constructor
        · intro failed
          obtain rfl : found = violation := Except.error.inj (fails.symm.trans failed)
          exact ⟨[], policy, rest, rfl, walks.nil seen, breaks⟩
        · rintro ⟨front, other, behind, parted, passes, also⟩
          cases front with
          | nil =>
              obtain ⟨rfl, rfl⟩ := List.cons.inj parted
              rw [fails, walks.unique breaks also]
          | cons first front =>
              obtain ⟨rfl, rfl⟩ := List.cons.inj parted
              rcases walks.cons seen policy front with ⟨_, _, fails⟩ | ⟨keeps, _⟩
              · rw [fails] at passes
                cases passes
              · exact absurd breaks (keeps found)
      · rw [goes, ih]
        constructor
        · rintro ⟨front, other, behind, rfl, passes, breaks⟩
          exact ⟨policy :: front, other, behind, rfl, (walks.goes_on keeps front).trans passes,
            walks.congr (mem_seen_iff front policy seen) breaks⟩
        · rintro ⟨front, other, behind, parted, passes, breaks⟩
          cases front with
          | nil =>
              obtain ⟨rfl, rfl⟩ := List.cons.inj parted
              exact absurd breaks (keeps violation)
          | cons first front =>
              obtain ⟨rfl, rfl⟩ := List.cons.inj parted
              exact ⟨front, other, behind, rfl, (walks.goes_on keeps front).symm.trans passes,
                walks.congr (fun name => (mem_seen_iff front policy seen name).symm) breaks⟩

/-- Policies pass exactly if none breaks a rule behind those before it, since the first one that
does would be reported.
-/
theorem ok_iff (walks : Walks check Breaks) {seen : List String} {policies : List Policy}
    : check seen policies = .ok ()
      ↔ ∀ front policy rest, policies = front ++ policy :: rest
          → ∀ violation, ¬ Breaks (namesOf front ++ seen) policy violation := by
  induction policies generalizing seen with
  | nil => simp [walks.nil]
  | cons policy rest ih =>
      rcases walks.cons seen policy rest with ⟨found, breaks, fails⟩ | ⟨keeps, goes⟩
      · rw [fails]
        constructor
        · intro passes
          cases passes
        · intro none
          exact absurd breaks (none [] policy rest rfl found)
      · rw [goes, ih]
        constructor
        · intro none front other behind parted violation breaks
          cases front with
          | nil =>
              obtain ⟨rfl, rfl⟩ := List.cons.inj parted
              exact keeps violation breaks
          | cons first front =>
              obtain ⟨rfl, rfl⟩ := List.cons.inj parted
              exact none front other behind rfl violation
                (walks.congr (fun name => (mem_seen_iff front policy seen name).symm) breaks)
        · rintro none front other behind rfl violation breaks
          exact none (policy :: front) other behind rfl violation
            (walks.congr (mem_seen_iff front policy seen) breaks)

end Walks

-----------------------------------------------------------------------------------------
-- Names and sources
-----------------------------------------------------------------------------------------

/-- What it takes for a policy to break no rule on names. -/
theorem not_misnamed_iff {graph : String} {before : List String} {policy : Policy}
    : (∀ violation, ¬ Misnamed graph before policy violation)
      ↔ Text.isEmptyTrimmed policy.name = false ∧ Text.isEmptyTrimmed policy.extractor = false
        ∧ policy.name ∉ before := by
  constructor
  · intro keeps
    have named : Text.isEmptyTrimmed policy.name = false := by
      by_contra empty
      exact keeps _ (.unnamed (by simpa using empty))
    have extractor : Text.isEmptyTrimmed policy.extractor = false := by
      by_contra empty
      exact keeps _ (.noExtractor named (by simpa using empty))
    exact ⟨named, extractor, fun used => keeps _ (.repeated named extractor used)⟩
  · rintro ⟨named, extractor, fresh⟩ violation breaks
    cases breaks with
    | unnamed empty => simp [named] at empty
    | noExtractor _ empty => simp [extractor] at empty
    | repeated _ _ used => exact fresh used

theorem checkNames_walks (graph : String) : Walks (checkNames graph) (Misnamed graph) where
  nil _ := rfl
  cons seen policy rest := by
    rw [checkNames, not_misnamed_iff]
    split
    next empty => exact .inl ⟨_, .unnamed empty, rfl⟩
    next named =>
      rw [Bool.not_eq_true] at named
      split
      next empty => exact .inl ⟨_, .noExtractor named empty, rfl⟩
      next extractor =>
        rw [Bool.not_eq_true] at extractor
        split
        next used => exact .inl ⟨_, .repeated named extractor used, rfl⟩
        next fresh => exact .inr ⟨⟨named, extractor, fresh⟩, rfl⟩
  unique breaks also := by
    cases breaks <;> cases also <;> simp_all
  congr same breaks := by
    cases breaks with
    | unnamed empty => exact .unnamed empty
    | noExtractor named empty => exact .noExtractor named empty
    | repeated named extractor used => exact .repeated named extractor ((same _).mp used)

/-- Policies are well named exactly if none is misnamed behind those before it; by induction from
the end of the list, where a name has all others before it.
-/
theorem wellNamed_iff (graph : String) {policies : List Policy}
    : WellNamed policies
      ↔ ∀ front policy rest, policies = front ++ policy :: rest
          → ∀ violation, ¬ Misnamed graph (namesOf front) policy violation := by
  simp only [not_misnamed_iff]
  constructor
  · rintro ⟨named, extractors, distinct⟩ front policy rest rfl
    have member : policy ∈ front ++ policy :: rest := List.mem_append_right _ List.mem_cons_self
    rw [namesOf, List.map_append, List.map_cons, List.nodup_append] at distinct
    exact ⟨named policy member, extractors policy member,
      fun used => distinct.2.2 _ used _ List.mem_cons_self rfl⟩
  · induction policies using List.reverseRecOn with
    | nil => exact fun _ => ⟨by simp, by simp, by simp⟩
    | append_singleton front policy ih =>
        intro keeps
        obtain ⟨named, extractor, fresh⟩ := keeps front policy [] rfl
        obtain ⟨names, extractors, distinct⟩ := ih fun before other rest parted =>
          keeps before other (rest ++ [policy]) (by simp [parted])
        refine ⟨?_, ?_, ?_⟩
        · exact List.forall_mem_append.mpr ⟨names, List.forall_mem_singleton.mpr named⟩
        · exact List.forall_mem_append.mpr ⟨extractors, List.forall_mem_singleton.mpr extractor⟩
        · rw [namesOf, List.map_append, List.map_singleton, ← List.concat_eq_append,
            List.nodup_concat]
          exact ⟨fresh, distinct⟩

theorem checkNames_eq_ok_iff {graph : String} {policies : List Policy}
    : checkNames graph [] policies = .ok () ↔ WellNamed policies := by
  rw [(checkNames_walks graph).ok_iff, wellNamed_iff graph]
  simp only [List.append_nil]

theorem checkSources_walks : Walks checkSources Undeclared where
  nil _ := rfl
  cons seen policy rest := by
    rw [checkSources]
    split
    next source reads =>
      split
      next known =>
        refine .inr ⟨?_, rfl⟩
        rintro _ ⟨also, absent⟩
        exact absent (Option.some.inj (reads.symm.trans also) ▸ known)
      next absent => exact .inl ⟨_, .unknown reads absent, rfl⟩
    next none =>
      refine .inr ⟨?_, rfl⟩
      rintro _ ⟨reads, _⟩
      cases none.symm.trans reads
  unique breaks also := by
    obtain ⟨reads, _⟩ := breaks
    obtain ⟨others, _⟩ := also
    rw [Option.some.inj (reads.symm.trans others)]
  congr same breaks := by
    obtain ⟨reads, absent⟩ := breaks
    exact .unknown reads fun member => absent ((same _).mpr member)

theorem checkSources_eq_ok_iff {policies : List Policy}
    : checkSources [] policies = .ok () ↔ ReadsBackward policies := by
  rw [checkSources_walks.ok_iff, ReadsBackward]
  simp only [List.append_nil]
  constructor
  · intro keeps front policy rest parted source reads
    by_contra absent
    exact keeps front policy rest parted _ (.unknown reads absent)
  · rintro keeps front policy rest parted _ ⟨reads, absent⟩
    exact absent (keeps front policy rest parted _ reads)

-----------------------------------------------------------------------------------------
-- Whole graphs
-----------------------------------------------------------------------------------------

variable {graph : Graph} {violation : Violation}

theorem validate_of_unnamed (empty : Text.isEmptyTrimmed graph.name = true)
    : graph.validate = .error .emptyName := by
  rw [validate, if_pos empty]
  rfl

theorem validate_of_no_policies (named : Text.isEmptyTrimmed graph.name = false)
    (none : graph.policies = []) : graph.validate = .error (.noPolicies graph.name) := by
  simp only [validate, named, none]
  rfl

theorem validate_of_policies (named : Text.isEmptyTrimmed graph.name = false)
    (nonempty : graph.policies ≠ [])
    : graph.validate = (checkNames graph.name [] graph.policies >>= fun _ =>
        checkSources [] graph.policies) := by
  have several : graph.policies.isEmpty = false := by simpa using nonempty
  simp only [validate, named, several]
  rfl

/-- The texts that a report of a broken rule names. -/
def Violation.names : Violation → List String
  | emptyName => []
  | noPolicies graph | emptyPolicyName graph => [graph]
  | emptyExtractor policy | repeatedName policy | noKey policy => [policy]
  | unknownSource policy source => [policy, source]

theorem isInfix_between (front name behind : String)
    : name.toList <:+: (front ++ name ++ behind).toList := by
  rw [String.toList_append, String.toList_append]
  exact List.infix_append _ _ _

theorem Violation.isInfix_message {name : String} (member : name ∈ violation.names)
    : name.toList <:+: violation.message.toList := by
  cases violation with
  | emptyName => cases member
  | noPolicies | emptyPolicyName | emptyExtractor | repeatedName | noKey =>
      obtain rfl := List.mem_singleton.mp member
      change _ <:+: (_ ++ _ ++ _ : String).toList
      exact isInfix_between _ _ _
  | unknownSource policy source =>
      change _ <:+: (_ ++ policy ++ _ ++ source ++ _ : String).toList
      rcases List.mem_pair.mp member with rfl | rfl
      · rw [String.append_assoc, String.toList_append]
        exact .trans (isInfix_between _ _ _) (List.prefix_append _ _).isInfix
      · exact isInfix_between _ _ _

theorem validate_eq_ok_iff : graph.validate = .ok () ↔ graph.Valid := by
  by_cases named : Text.isEmptyTrimmed graph.name = false
  · by_cases none : graph.policies = []
    · rw [validate_of_no_policies named none]
      exact ⟨nofun, fun valid => absurd none valid.nonempty⟩
    · rw [validate_of_policies named none, Except.bind_eq_ok_iff]
      constructor
      · rintro ⟨_, names, sources⟩
        exact ⟨named, none, checkNames_eq_ok_iff.mp names, checkSources_eq_ok_iff.mp sources⟩
      · intro valid
        exact ⟨(), checkNames_eq_ok_iff.mpr valid.wellNamed,
          checkSources_eq_ok_iff.mpr valid.readsBackward⟩
  · rw [validate_of_unnamed (by simpa using named)]
    exact ⟨nofun, fun valid => absurd valid.named named⟩

theorem validate_of_firstBroken (broken : graph.FirstBroken violation)
    : graph.validate = .error violation := by
  cases broken with
  | unnamed empty => exact validate_of_unnamed empty
  | noPolicies named none => exact validate_of_no_policies named none
  | @misnamed front rest policy _ named parted earlier breaks =>
      have fails : checkNames graph.name [] graph.policies = .error violation := by
        rw [(checkNames_walks graph.name).error_iff]
        exact ⟨front, policy, rest, parted, checkNames_eq_ok_iff.mpr earlier, by simpa using breaks⟩
      rw [validate_of_policies named (by simp [parted]), fails]
      rfl
  | @undeclared front rest policy _ named wellNamed parted earlier breaks =>
      have fails : checkSources [] graph.policies = .error violation := by
        rw [checkSources_walks.error_iff]
        exact ⟨front, policy, rest, parted, checkSources_eq_ok_iff.mpr earlier,
          by simpa using breaks⟩
      rw [validate_of_policies named (by simp [parted]), checkNames_eq_ok_iff.mpr wellNamed]
      exact fails

theorem firstBroken_of_validate (failed : graph.validate = .error violation)
    : graph.FirstBroken violation := by
  by_cases named : Text.isEmptyTrimmed graph.name = false
  · by_cases none : graph.policies = []
    · rw [validate_of_no_policies named none] at failed
      cases failed
      exact .noPolicies named none
    · rw [validate_of_policies named none] at failed
      cases names : checkNames graph.name [] graph.policies with
      | error other =>
          rw [names] at failed
          cases failed
          obtain ⟨front, policy, rest, parted, earlier, breaks⟩ :=
            (checkNames_walks graph.name).error_iff.mp names
          rw [List.append_nil] at breaks
          exact .misnamed named parted (checkNames_eq_ok_iff.mp earlier) breaks
      | ok _ =>
          rw [names] at failed
          obtain ⟨front, policy, rest, parted, earlier, breaks⟩ :=
            checkSources_walks.error_iff.mp failed
          rw [List.append_nil] at breaks
          exact .undeclared named (checkNames_eq_ok_iff.mp names) parted
            (checkSources_eq_ok_iff.mp earlier) breaks
  · have empty : Text.isEmptyTrimmed graph.name = true := by simpa using named
    rw [validate_of_unnamed empty] at failed
    cases failed
    exact .unnamed empty

/-- Validation accepts exactly the graphs that keep all rules. Of any other graph it reports the
first rule that is broken, and the report names the graph, the policy and the source that the rule
is about.
-/
theorem validate_reports_first_broken (graph : Graph)
    : (graph.validate = .ok () ↔ graph.Valid)
      ∧ (∀ violation, graph.validate = .error violation ↔ graph.FirstBroken violation)
      ∧ ∀ violation, graph.validate = .error violation
          → ∀ name ∈ violation.names, name.toList <:+: violation.message.toList := by
  refine ⟨validate_eq_ok_iff, ?_, fun _ _ _ => Violation.isInfix_message⟩
  intro violation
  exact ⟨firstBroken_of_validate, validate_of_firstBroken⟩

/-- A name that is used twice is reported before a source that is declared too late. -/
example : validate ⟨"g", none, [⟨"x", "a", ⟨"m", "k", "i"⟩, some "b"⟩,
      ⟨"x", "b", ⟨"m", "k", "i"⟩, none⟩, ⟨"x", "b", ⟨"m", "k", "i"⟩, none⟩]⟩
    = .error (.repeatedName "b") := by
  decide

end DocPipeline.Graph
