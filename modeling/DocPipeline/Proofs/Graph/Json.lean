import DocPipeline.Graph.Json
import DocPipeline.Proofs.Json.Decode

/-! Graphs read back from their JSON form, whatever their texts are and whether or not they keep the
rules. What a graph leaves open is no field of its form.
-/

namespace DocPipeline

open Json Json.Decode

theorem Params.writable_toJson (params : Params) : Writable params.toJson := by
  apply writable_record
  intro field member
  simp only [List.mem_cons, List.not_mem_nil, or_false] at member
  rcases member with rfl | rfl | rfl <;> exact writable_text _

theorem Params.ofJson_toJson (params : Params) : ofJson params.toJson = some params := by
  unfold ofJson toJson
  rw [slots_record (by simp)]
  rfl

theorem Policy.writable_toJson (policy : Policy) : Writable policy.toJson := by
  apply writable_record
  intro field member
  rcases List.mem_append.mp member with required | optional
  · simp only [List.mem_cons, List.not_mem_nil, or_false] at required
    rcases required with rfl | rfl | rfl
    · exact writable_text _
    · exact writable_text _
    · exact policy.params.writable_toJson
  · exact writable_optionalField optional

theorem Policy.ofJson_toJson (policy : Policy) : ofJson policy.toJson = some policy := by
  obtain ⟨extractor, name, params, source⟩ := policy
  unfold ofJson toJson
  rw [slots_record (by cases source <;> simp [optionalField])]
  have inner : required Params.ofJson (some params.toJson) = some params := params.ofJson_toJson
  cases source with
  | none =>
      change (required Params.ofJson (some params.toJson) >>= fun params =>
        some (Policy.mk extractor name params none)) = _
      rw [inner]
      rfl
  | some s =>
      change (required Params.ofJson (some params.toJson) >>= fun params =>
        some (Policy.mk extractor name params (some s))) = _
      rw [inner]
      rfl

namespace Graph

theorem writable_toJson (graph : Graph) : Writable graph.toJson := by
  apply writable_record
  intro field member
  rcases List.mem_append.mp member with front | policies
  · rcases List.mem_append.mp front with name | optional
    · rw [List.mem_singleton.mp name]
      exact writable_text _
    · exact writable_optionalField optional
  · rw [List.mem_singleton.mp policies]
    apply writable_array
    intro item inside
    obtain ⟨policy, _, rfl⟩ := List.mem_map.mp inside
    exact policy.writable_toJson

theorem ofJson_toJson (graph : Graph) : ofJson graph.toJson = some graph := by
  obtain ⟨name, description, policies⟩ := graph
  unfold ofJson toJson
  rw [slots_record (by cases description <;> simp [optionalField])]
  have inner : required (list Policy.ofJson) (some (.array (policies.map Policy.toJson)))
      = some policies := list_map fun policy _ => policy.ofJson_toJson
  cases description with
  | none =>
      change (required (list Policy.ofJson) (some (.array (policies.map Policy.toJson)))
        >>= fun policies => some (Graph.mk name none policies)) = _
      rw [inner]
      rfl
  | some s =>
      change (required (list Policy.ofJson) (some (.array (policies.map Policy.toJson)))
        >>= fun policies => some (Graph.mk name (some s) policies)) = _
      rw [inner]
      rfl

/-- What is sent to register a graph decodes to that graph. -/
theorem ofText_toJson (graph : Graph)
    : (Json.ofText graph.toJson.compact).bind ofJson = some graph := by
  rw [ofText_compact graph.writable_toJson, Option.bind_some, ofJson_toJson]

end Graph
end DocPipeline
