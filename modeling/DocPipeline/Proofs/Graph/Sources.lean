import DocPipeline.Proofs.Graph.Keys
import DocPipeline.Proofs.Graph.Rules
import DocPipeline.Proofs.Run.Protocol

/-! Sources of a graph that keeps all rules. Every policy is found under its own name, and every
source under the name of a policy before it, so going from source to source leads back to a policy
that reads the document.
-/

namespace DocPipeline.Graph

variable {graph : Graph} {policy : Policy} {front rest : List Policy}

-----------------------------------------------------------------------------------------
-- Policies under their names
-----------------------------------------------------------------------------------------

/-- A name that only one policy has finds this policy. -/
theorem policy?_of_mem (distinct : (namesOf graph.policies).Nodup)
    (member : policy ∈ graph.policies) : graph.policy? policy.name = some policy := by
  obtain ⟨front, rest, parted⟩ := List.append_of_mem member
  rw [parted, namesOf, List.map_append, List.map_cons, List.nodup_append] at distinct
  have fresh : ∀ other ∈ front, ¬ other.name = policy.name := by
    intro other earlier same
    exact distinct.2.2 _ (List.mem_map_of_mem earlier) _ List.mem_cons_self same
  rw [policy?, List.find?_eq_some_iff_append]
  exact ⟨by simp, front, rest, parted, by simpa using fresh⟩

/-- The source of a policy is found among the policies before it. -/
theorem Valid.source_found (valid : graph.Valid) {source : String}
    (parted : graph.policies = front ++ policy :: rest) (reads : policy.source = some source)
    : ∃ other ∈ front, graph.policy? source = some other := by
  have declared : source ∈ namesOf front :=
    valid.readsBackward front policy rest parted source reads
  obtain ⟨other, earlier, rfl⟩ := List.mem_map.mp declared
  have member : other ∈ graph.policies := parted ▸ List.mem_append_left _ earlier
  exact ⟨other, earlier, policy?_of_mem valid.wellNamed.distinct member⟩

/-- No policy is before the first one, so that one has no source. -/
theorem Valid.source_of_first (valid : graph.Valid) (parted : graph.policies = policy :: rest)
    : policy.source = none := by
  cases reads : policy.source with
  | none => rfl
  | some source =>
      have start : graph.policies = [] ++ policy :: rest := parted
      obtain ⟨other, earlier, _⟩ := valid.source_found start reads
      cases earlier

-----------------------------------------------------------------------------------------
-- From source to source
-----------------------------------------------------------------------------------------

/-- So many sources lead from the policy at an index to one that reads the document. Each source is
looked up by its name, and the policy that is found is at a smaller index.
-/
inductive LeadsToDocument (graph : Graph) : (index steps : Nat) → Prop
  | document {index : Nat} {policy : Policy} (here : graph.policies[index]? = some policy)
    (none : policy.source = none) : LeadsToDocument graph index 0
  | source {index earlier steps : Nat} {policy other : Policy} {source : String}
    (here : graph.policies[index]? = some policy) (reads : policy.source = some source)
    (found : graph.policy? source = some other) (there : graph.policies[earlier]? = some other)
    (before : earlier < index) (rest : LeadsToDocument graph earlier steps)
    : LeadsToDocument graph index (steps + 1)

/-- There are no more sources than policies before the first one, by induction on the sources. -/
theorem LeadsToDocument.steps_le {index steps : Nat} (leads : graph.LeadsToDocument index steps)
    : steps ≤ index := by
  induction leads with
  | document => exact Nat.zero_le _
  | source _ _ _ _ before _ ih => omega

/-- A source is found at a smaller index than the policy that reads it. -/
theorem Valid.source_before (valid : graph.Valid) {index : Nat} {source : String}
    (here : graph.policies[index]? = some policy) (reads : policy.source = some source)
    : ∃ earlier other,
        earlier < index ∧ graph.policies[earlier]? = some other
        ∧ graph.policy? source = some other := by
  obtain ⟨inside, rfl⟩ := List.getElem?_eq_some_iff.mp here
  have parted : graph.policies = graph.policies.take index
      ++ graph.policies[index] :: graph.policies.drop (index + 1) := by simp
  obtain ⟨other, member, found⟩ := valid.source_found parted reads
  obtain ⟨earlier, before, rfl⟩ := List.mem_take_iff_getElem.mp member
  refine ⟨earlier, _, by omega, ?_, found⟩
  exact List.getElem?_eq_getElem (by omega)

/-- Sources lead from everywhere to the document, by induction on the index, which each of them
makes smaller.
-/
theorem Valid.leadsToDocument (valid : graph.Valid) {index : Nat}
    (inside : index < graph.policies.length) : ∃ steps, graph.LeadsToDocument index steps := by
  induction index using Nat.strongRecOn with
  | ind index ih =>
      have here := List.getElem?_eq_getElem inside
      cases reads : graph.policies[index].source with
      | none => exact ⟨0, .document here reads⟩
      | some source =>
          obtain ⟨earlier, other, before, there, found⟩ := valid.source_before here reads
          obtain ⟨steps, leads⟩ := ih earlier before (by omega)
          exact ⟨steps + 1, .source here reads found there before leads⟩

-----------------------------------------------------------------------------------------
-- Fewer policies
-----------------------------------------------------------------------------------------

theorem WellNamed.of_append (wellNamed : WellNamed (front ++ rest)) : WellNamed front where
  named policy member := wellNamed.named policy (List.mem_append_left _ member)
  extractors policy member := wellNamed.extractors policy (List.mem_append_left _ member)
  distinct := by
    have distinct := wellNamed.distinct
    rw [namesOf, List.map_append] at distinct
    exact (List.nodup_append.mp distinct).1

theorem ReadsBackward.of_append (backward : ReadsBackward (front ++ rest))
    : ReadsBackward front := by
  intro before policy behind parted
  refine backward before policy (behind ++ rest) ?_
  rw [parted, List.append_assoc, List.cons_append]

/-- The rules look backward only, so the first policies keep them without the others. -/
theorem Valid.of_prefix (valid : graph.Valid) (some : front ≠ []) (first : front <+: graph.policies)
    : Valid { graph with policies := front } := by
  obtain ⟨rest, parted⟩ := first
  refine ⟨valid.named, some, ?_, ?_⟩
  · exact .of_append (parted ▸ valid.wellNamed)
  · exact .of_append (parted ▸ valid.readsBackward)

/-- A graph that passes validation is a pipeline from the document to its last policy. Each policy
is found under its name, and the last one is the one whose output is read back, so a run never finds
the policies missing. The first policy reads the document, and from every other one fewer sources
than there are policies lead back to such a policy, each found at a smaller index. Neither the
policies behind some of the first ones nor the parameters of policies matter to this.
-/
theorem validate_makes_pipeline {graph : Graph} (passes : graph.validate = .ok ())
    : (∀ policy ∈ graph.policies, graph.policy? policy.name = some policy)
      ∧ (∃ front last,
          graph.policies = front ++ [last] ∧ graph.outputPolicy? = some last
          ∧ Run.outputPolicy graph = .ok last)
      ∧ (∃ first rest, graph.policies = first :: rest ∧ first.source = none)
      ∧ (∀ index < graph.policies.length,
          ∃ steps < graph.policies.length, graph.LeadsToDocument index steps)
      ∧ (∀ front, front ≠ [] → front <+: graph.policies
          → validate { graph with policies := front } = .ok ())
      ∧ ∀ text, (graph.withKey text).validate = .ok () ∧ (graph.withModel text).validate = .ok () := by
  have valid := validate_eq_ok_iff.mp passes
  refine ⟨?_, ?_, ?_, ?_, ?_, ?_⟩
  · intro policy member
    exact policy?_of_mem valid.wellNamed.distinct member
  · obtain ⟨last, isLast, chosen⟩ := Run.outputPolicy_of_valid passes
    obtain ⟨front, parted⟩ := List.getLast?_eq_some_iff.mp isLast
    exact ⟨front, last, parted, isLast, chosen⟩
  · obtain ⟨first, rest, parted⟩ := List.exists_cons_of_ne_nil valid.nonempty
    exact ⟨first, rest, parted, valid.source_of_first parted⟩
  · intro index inside
    obtain ⟨steps, leads⟩ := valid.leadsToDocument inside
    exact ⟨steps, Nat.lt_of_le_of_lt leads.steps_le inside, leads⟩
  · intro front some first
    exact validate_eq_ok_iff.mpr (valid.of_prefix some first)
  · intro text
    exact ⟨(validate_mapParams _ graph).trans passes, (validate_mapParams _ graph).trans passes⟩

/-- Two policies that read the same one, of which the second is read in turn. -/
def shared : Graph where
  name := "shared"
  description := none
  policies :=
    [⟨"x", "pages", ⟨"m", "k", "i"⟩, none⟩, ⟨"x", "words", ⟨"m", "k", "i"⟩, some "pages"⟩,
      ⟨"x", "tables", ⟨"m", "k", "i"⟩, some "pages"⟩, ⟨"x", "sums", ⟨"m", "k", "i"⟩, some "tables"⟩]

/-- The sums are two sources away from the document, also with another key and another model. -/
theorem validate_makes_pipeline_of_shared
    : shared.validate = .ok ()
      ∧ (∃ steps < 4, shared.LeadsToDocument 3 steps)
      ∧ shared.policy? "tables" = some ⟨"x", "tables", ⟨"m", "k", "i"⟩, some "pages"⟩
      ∧ validate { shared with policies := shared.policies.take 2 } = .ok ()
      ∧ ((shared.withKey "other").withModel "").validate = .ok () := by
  have passes : shared.validate = .ok () := by decide
  obtain ⟨found, _, _, leads, shorter, changed⟩ := validate_makes_pipeline passes
  obtain ⟨_, _, _, _, _, again⟩ := validate_makes_pipeline (changed "other").1
  refine ⟨passes, leads 3 (by decide), ?_, ?_, (again "").2⟩
  · exact found ⟨"x", "tables", ⟨"m", "k", "i"⟩, some "pages"⟩ (by decide)
  · exact shorter _ (by decide) (List.take_prefix 2 _)

end DocPipeline.Graph
