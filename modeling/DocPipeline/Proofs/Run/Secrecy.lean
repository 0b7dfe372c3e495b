import DocPipeline.Proofs.Run.Alike

/-! Credentials stay out of everything but the registration. Two runs of graphs that are equal
except for their credentials cannot be told apart by their results, their reports, the trees they
leave, or any request other than the ones that register the graphs.
-/

namespace DocPipeline

/-- Moments that belong together report the same events, by induction on the pairs. -/
theorem Moment.events_eq_of_paired {wanted : Bool} {graph other : Graph}
    {moments beside : List Moment}
    (paired : List.Forall₂ (Moment.Paired wanted graph other) moments beside)
    : events moments = events beside := by
  induction paired with
  | nil => rfl
  | @cons moment second moments beside pair _ ih =>
      have alike : events [moment] = events [second] := by
        cases pair <;> rfl
      change events ([moment] ++ moments) = events ([second] ++ beside)
      simp only [events, List.filterMap_append] at alike ih ⊢
      rw [alike, ih]

namespace Run

/-- Credentials show in no result, no report, no tree and no request but a registration. Two graphs
that are equal except for their credentials break the same rule or none and have the same diagnostic
texts. Their runs end alike, leave the same tree and the same events, and try the same number of
requests; those that were taken are the same, except that each run registers its own graph.
-/
theorem carryOut_hides_keys {σ : Type} (client : Client) (settings : Settings) (peer : Web.Peer)
    (clock : Clock) {graph other : Graph} (same : graph.SameButKeys other) (input : String)
    (output : Option String) (scene : Scene σ)
    : let first := (carryOut (client.plan settings peer clock graph) input output).outcome scene
      let second := (carryOut (client.plan settings peer clock other) input output).outcome scene
      first.1 = second.1
      ∧ first.2.tree = second.2.tree
      ∧ Moment.events first.2.moments = Moment.events second.2.moments
      ∧ first.2.outside.traffic.tried = second.2.outside.traffic.tried
      ∧ Continued (Web.Paired client settings.createGraph graph other)
          scene.outside.traffic.taken first.2.outside.traffic.taken
          second.2.outside.traffic.taken
      ∧ graph.validate = other.validate
      ∧ graph.diagnostic.compact = other.diagnostic.compact
      ∧ graph.diagnostic.spread 0 = other.diagnostic.spread 0 := by
  have begun : Scene.Beside client settings.createGraph graph other scene scene scene :=
    ⟨rfl, ⟨rfl, rfl, Continued.refl ..⟩, Continued.refl ..⟩
  obtain ⟨result, left, right, one, two, related⟩ :=
    carryOut_alike same input output scene scene begun
  obtain ⟨moments, beside, leftMoments, rightMoments, paired⟩ := related.moments
  intro first second
  have firstEnd : first = (result, left) := one
  have secondEnd : second = (result, right) := two
  rw [firstEnd, secondEnd]
  refine ⟨rfl, related.tree, ?_, related.outside.traffic.tried, related.outside.traffic.taken,
    same.validate, congrArg _ same.diagnostic, congrArg _ same.diagnostic⟩
  have events := Moment.events_eq_of_paired paired
  dsimp only
  rw [leftMoments, rightMoments]
  simp only [Moment.events, List.filterMap_append] at events ⊢
  rw [events]

/-- A graph of one policy with this credential. -/
def oneStep (key : String) : Graph :=
  ⟨"g", none, [⟨"x", "p", ⟨"m", key, "i"⟩, none⟩]⟩

/-- A run of that graph with a document, over a server that grants everything and says nothing. -/
def oneStepRun (key : String) : Except Failure Delivery × Scene Unit :=
  let grants : Web.Peer := fun _ => .answer ⟨200, [], [], .whole⟩
  let plan := (Client.standard "http://host" "space").plan .standard grants (.exact (2 ^ 80))
    (oneStep key)
  (carryOut plan "doc.pdf" none).outcome
    ⟨⟨[], [(["doc.pdf".toList], .file [1, 2, 3])]⟩, ⟨(), .none⟩, []⟩

/-- Two graphs with different credentials are run alike. -/
theorem carryOut_hides_keys_of_one_step
    : oneStep "sk-1" ≠ oneStep "sk-2" ∧ (oneStep "sk-1").SameButKeys (oneStep "sk-2")
      ∧ (oneStepRun "sk-1").1 = (oneStepRun "sk-2").1
      ∧ Moment.events (oneStepRun "sk-1").2.moments = Moment.events (oneStepRun "sk-2").2.moments
      ∧ Continued
          (Web.Paired (.standard "http://host" "space") true (oneStep "sk-1") (oneStep "sk-2"))
          [] (oneStepRun "sk-1").2.outside.traffic.taken
          (oneStepRun "sk-2").2.outside.traffic.taken := by
  have same : (oneStep "sk-1").SameButKeys (oneStep "sk-2") := by decide
  obtain ⟨result, _, events, _, taken, _⟩ := carryOut_hides_keys
    (Client.standard "http://host" "space") .standard (fun _ => .answer ⟨200, [], [], .whole⟩)
    (.exact (2 ^ 80)) same "doc.pdf" none
    (⟨⟨[], [(["doc.pdf".toList], .file [1, 2, 3])]⟩, ⟨(), .none⟩, []⟩ : Scene Unit)
  exact ⟨by decide, same, result, events, taken⟩

end Run
end DocPipeline
