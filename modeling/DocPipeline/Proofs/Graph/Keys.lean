import DocPipeline.Graph.Diagnostic
import DocPipeline.Run.Basic

/-! Graphs with other parameters. The rules of a graph do not read the parameters of its policies,
and its diagnostic text does not read the credentials among them, so both are the same for two
graphs that differ in their credentials only.
-/

namespace DocPipeline

namespace Graph

/-- The two graphs are equal except for the credentials of their policies. -/
def SameButKeys (graph other : Graph) : Prop :=
  graph.withKey "" = other.withKey ""
deriving Decidable

section Rules

variable (f : Params → Params)

theorem checkNames_map (name : String) (policies : List Policy) (seen : List String)
    : checkNames name seen (policies.map fun p => { p with params := f p.params })
      = checkNames name seen policies := by
  induction policies generalizing seen with
  | nil => rfl
  | cons policy rest ih => simp only [List.map_cons, checkNames, ih]

theorem checkSources_map (policies : List Policy) (declared : List String)
    : checkSources declared (policies.map fun p => { p with params := f p.params })
      = checkSources declared policies := by
  induction policies generalizing declared with
  | nil => rfl
  | cons policy rest ih => simp only [List.map_cons, checkSources, ih]

/-- No rule reads the parameters, since the names and sources of the policies stay. -/
@[simp]
theorem validate_mapParams (graph : Graph) : (graph.mapParams f).validate = graph.validate := by
  simp only [validate, mapParams, checkNames_map, checkSources_map, List.isEmpty_map]

/-- The name of the output policy does not depend on the parameters. -/
theorem name_outputPolicy_mapParams (graph : Graph)
    : (Run.outputPolicy (graph.mapParams f)).map Policy.name
      = (Run.outputPolicy graph).map Policy.name := by
  simp only [Run.outputPolicy, validate_mapParams]
  cases graph.validate with
  | error violation => rfl
  | ok _ =>
      simp only [outputPolicy?, mapParams, List.getLast?_map]
      cases graph.policies.getLast? <;> rfl

end Rules

theorem diagnostic_withKey (graph : Graph) (key : String)
    : (graph.withKey key).diagnostic = graph.diagnostic := by
  simp only [diagnostic, withKey, mapParams, List.map_map]
  rfl

namespace SameButKeys

variable {graph other : Graph}

theorem refl (graph : Graph) : graph.SameButKeys graph :=
  rfl

theorem name (same : graph.SameButKeys other) : graph.name = other.name :=
  calc graph.name
    _ = (graph.withKey "").name := rfl
    _ = (other.withKey "").name := congrArg Graph.name same
    _ = other.name := rfl

theorem validate (same : graph.SameButKeys other) : graph.validate = other.validate := by
  rw [← validate_mapParams ({ · with key := "" }) graph, ← validate_mapParams _ other]
  exact congrArg Graph.validate same

theorem diagnostic (same : graph.SameButKeys other) : graph.diagnostic = other.diagnostic := by
  rw [← diagnostic_withKey graph "", ← diagnostic_withKey other ""]
  exact congrArg Graph.diagnostic same

theorem name_outputPolicy (same : graph.SameButKeys other)
    : (Run.outputPolicy graph).map Policy.name = (Run.outputPolicy other).map Policy.name := by
  rw [← name_outputPolicy_mapParams ({ · with key := "" }) graph,
    ← name_outputPolicy_mapParams _ other]
  exact congrArg (fun graph => (Run.outputPolicy graph).map Policy.name) same

end SameButKeys

end Graph
end DocPipeline
