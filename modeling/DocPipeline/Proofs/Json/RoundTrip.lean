import DocPipeline.Delivery
import DocPipeline.Job.Status
import DocPipeline.Proofs.Graph.Json
import Mathlib.Data.List.Forall2

/-! Everything that is written as JSON is read back: graphs, names of contents, states of jobs,
tallies and deliveries. Texts are kept character by character and counts up to their limits.
-/

namespace DocPipeline

open Json Json.Decode

-----------------------------------------------------------------------------------------
-- States of jobs
-----------------------------------------------------------------------------------------

theorem Status.writable_toJson (status : Status) : Writable status.toJson := by
  cases status with
  | pending | completed => exact ⟨rfl, rfl, trivial⟩
  | failed reason => exact ⟨rfl, rfl, rfl, rfl, trivial⟩

/-- A state is sound and not nested, so looking at all of it before its tag is known finds nothing
wrong; by cases on the state.
-/
theorem Status.ofJson_toJson (status : Status) : ofJson status.toJson = some status := by
  cases status with
  | pending | completed => decide +kernel
  | failed reason => rfl

-----------------------------------------------------------------------------------------
-- Tallies and deliveries
-----------------------------------------------------------------------------------------

/-- The counts of the tally fit into their fields. -/
structure Tally.InRange (t : Tally) : Prop where
  downloadedBytes : t.downloadedBytes < 2 ^ 64
  uploadedBytes : t.uploadedBytes < 2 ^ 64
  checks : t.checks < 2 ^ 32
  characters : t.characters < 2 ^ 64
  downloadMillis : t.downloadMillis < 2 ^ 64
  uploadMillis : t.uploadMillis < 2 ^ 64
  waitMillis : t.waitMillis < 2 ^ 64
  fetchMillis : t.fetchMillis < 2 ^ 64
  totalMillis : t.totalMillis < 2 ^ 64

theorem Tally.writable_toJson (t : Tally) : Writable t.toJson := by
  apply writable_record
  intro field member
  obtain ⟨n, _, same⟩ := List.mem_map.mp (List.of_mem_zip member).2
  rw [← same]
  exact writable_natural n

/-- Counts below the limits of their fields are read one by one, by induction on the fields. -/
theorem Tally.counts_read {limits : List (String × Nat)} {counts : List Nat}
    (inRange : List.Forall₂ (fun n field => n < field.2) counts limits)
    : ((limits.zip (counts.map fun n => some (Json.natural n))).mapM fun slot =>
        required (Json.Decode.natural slot.1.2) slot.2) = some counts := by
  induction inRange with
  | nil => rfl
  | cons below _ ih =>
      have first : required (Json.Decode.natural _) (some (Json.natural _)) = some _ :=
        natural_natural below
      rw [List.map_cons, List.zip_cons_cons, List.mapM_cons, first, ih]
      rfl

theorem Tally.ofJson_toJson {t : Tally} (inRange : t.InRange) : ofJson t.toJson = some t := by
  have below : List.Forall₂ (fun n field => n < field.2) t.toList fieldLimits :=
    .cons inRange.downloadedBytes <| .cons inRange.uploadedBytes <| .cons inRange.checks <|
      .cons inRange.characters <| .cons inRange.downloadMillis <| .cons inRange.uploadMillis <|
      .cons inRange.waitMillis <| .cons inRange.fetchMillis <| .cons inRange.totalMillis .nil
  have slots : Json.Decode.slots (fieldLimits.map (·.1)) t.toJson
      = some (t.toList.map fun n => some (Json.natural n)) := by
    unfold toJson
    rw [slots_record (by simp [fieldLimits, toList])]
    rfl
  have counts := counts_read below
  unfold ofJson
  rw [slots]
  change (List.mapM _ (fieldLimits.zip _) >>= ofList?) = _
  rw [counts]
  rfl

theorem Delivery.writable_toJson (d : Delivery) : Writable d.toJson := by
  apply writable_record
  intro field member
  simp only [List.mem_cons, List.not_mem_nil, or_false] at member
  rcases member with rfl | rfl | rfl | rfl | rfl
  · exact writable_text _
  · exact writable_text _
  · exact writable_text _
  · exact writable_text _
  · exact d.tally.writable_toJson

theorem Delivery.ofJson_toJson {d : Delivery} (inRange : d.tally.InRange)
    : ofJson d.toJson = some d := by
  have inner : required Tally.ofJson (some d.tally.toJson) = some d.tally :=
    Tally.ofJson_toJson inRange
  unfold ofJson toJson
  rw [slots_record (by simp)]
  change (required Tally.ofJson (some d.tally.toJson) >>= fun tally =>
    some (Delivery.mk d.text d.content d.graph d.policy tally)) = _
  rw [inner]
  rfl

-----------------------------------------------------------------------------------------
-- Everything that is written
-----------------------------------------------------------------------------------------

/-- The text is JSON and decodes to the value. -/
def ReadsBack {α : Type} (read : Json → Option α) (text : String) (value : α) : Prop :=
  (Json.ofText text).bind read = some value

/-- The text of a graph is an object that has a description exactly if the graph has one, and the
policies as they are written.
-/
theorem Graph.fields_of_compact (graph : Graph)
    : ∃ fields, Json.ofText graph.toJson.compact = some (.object fields)
      ∧ entriesOf "description" fields = graph.description.toList.map Json.text
      ∧ entriesOf "extraction_policies" fields = [.array (graph.policies.map Policy.toJson)] := by
  refine ⟨_, ofText_compact graph.writable_toJson, ?_, ?_⟩ <;>
    cases graph.description <;> simp [entriesOf, optionalField]

/-- The text of a policy is an object that names a source exactly if the policy has one. -/
theorem Policy.fields_of_compact (policy : Policy)
    : ∃ fields, Json.ofText policy.toJson.compact = some (.object fields)
      ∧ entriesOf "content_source" fields = policy.source.toList.map Json.text := by
  refine ⟨_, ofText_compact policy.writable_toJson, ?_⟩
  cases policy.source <;> simp [entriesOf, optionalField]

/-- Everything that is written on one line is read back: every graph, whether or not it keeps the
rules, every name of a content, every state of a job, and every tally and delivery whose counts fit
into their fields. A delivery is also read back from its text over several lines. A description or
source that is absent is no field of the text, and one that is there is a field even if it is empty.
-/
theorem written_values_read_back
    : (∀ graph : Graph, ReadsBack Graph.ofJson graph.toJson.compact graph
        ∧ ∃ fields, Json.ofText graph.toJson.compact = some (.object fields)
          ∧ entriesOf "description" fields = graph.description.toList.map Json.text
          ∧ entriesOf "extraction_policies" fields
            = [.array (graph.policies.map Policy.toJson)])
      ∧ (∀ policy : Policy, ReadsBack Policy.ofJson policy.toJson.compact policy
        ∧ ∃ fields, Json.ofText policy.toJson.compact = some (.object fields)
          ∧ entriesOf "content_source" fields = policy.source.toList.map Json.text)
      ∧ (∀ content : String, ReadsBack Json.Decode.text (Json.text content).compact content)
      ∧ (∀ status : Status, ReadsBack Status.ofJson status.toJson.compact status)
      ∧ (∀ t : Tally, t.InRange → ReadsBack Tally.ofJson t.toJson.compact t)
      ∧ ∀ d : Delivery, d.tally.InRange
        → ReadsBack Delivery.ofJson d.toJson.compact d
          ∧ ReadsBack Delivery.ofJson d.toJson.pretty d := by
  have back {α : Type} {read : Json → Option α} {json : Json} {value : α}
      (writable : Writable json) (decodes : read json = some value)
      : ReadsBack read json.compact value := by
    rw [ReadsBack, ofText_compact writable, Option.bind_some, decodes]
  refine ⟨?_, ?_, ?_, ?_, ?_, ?_⟩
  · intro graph
    exact ⟨graph.ofText_toJson, graph.fields_of_compact⟩
  · intro policy
    exact ⟨back policy.writable_toJson policy.ofJson_toJson, policy.fields_of_compact⟩
  · intro content
    exact back (writable_text content) rfl
  · intro status
    exact back status.writable_toJson status.ofJson_toJson
  · intro t inRange
    exact back t.writable_toJson (Tally.ofJson_toJson inRange)
  · intro d inRange
    refine ⟨back d.writable_toJson (Delivery.ofJson_toJson inRange), ?_⟩
    rw [ReadsBack, ofText_pretty d.writable_toJson, Option.bind_some,
      Delivery.ofJson_toJson inRange]

/-- A delivery whose counts are the largest ones, and whose text needs escapes. -/
def fullDelivery : Delivery where
  text := "\"\u0001é\n"
  content := ""
  graph := "null"
  policy := "\\"
  tally :=
    ⟨2 ^ 64 - 1, 2 ^ 64 - 1, 2 ^ 32 - 1, 2 ^ 64 - 1, 2 ^ 64 - 1, 2 ^ 64 - 1, 2 ^ 64 - 1,
      2 ^ 64 - 1, 2 ^ 64 - 1⟩

/-- The delivery with the largest counts is read back from both of its texts. -/
theorem written_values_read_back_of_full
    : fullDelivery.tally.InRange
      ∧ ReadsBack Delivery.ofJson fullDelivery.toJson.compact fullDelivery
      ∧ ReadsBack Delivery.ofJson fullDelivery.toJson.pretty fullDelivery := by
  have inRange : fullDelivery.tally.InRange := by
    constructor <;> decide
  exact ⟨inRange, written_values_read_back.2.2.2.2.2 fullDelivery inRange⟩

end DocPipeline
