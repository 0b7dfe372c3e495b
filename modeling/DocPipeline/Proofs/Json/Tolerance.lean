import DocPipeline.Proofs.Json.RoundTrip
import DocPipeline.Proofs.Json.Spelled
import DocPipeline.Proofs.Json.Variation
import DocPipeline.Service.Wire
import Mathlib.Logic.Relation

/-! What comes as JSON is read so that later services may say more. The order of fields, unknown
fields and white space change nothing, a field that has a default may be left out, and no known
field may come twice.
-/

namespace DocPipeline

open Json Json.Decode

variable {admits : Json → Prop}

-----------------------------------------------------------------------------------------
-- Tasks and what a service sends back
-----------------------------------------------------------------------------------------

namespace Task

/-- The fields of a task. -/
def form : Form :=
  .record (Form.plain ["id", "extraction_policy_id", "outcome"])

/-- The fields of a task that may be left out, with a task that has their defaults. -/
def defaults : List (String × (Task → Task)) :=
  [("extraction_policy_id", fun task => { task with policy := "" }),
    ("outcome", fun task => { task with outcome := .unknown })]

theorem tolerates : Tolerates admits form ofJson :=
  tolerates_record (fun _ => rfl) fun _ _ member => .inl (eq_whole_of_mem_plain member)

theorem readsPart_policy
    : ReadsPart ofJson "extraction_policy_id" (withDefault "" text)
        ⟨policy, fun policy task => { task with policy }⟩ :=
  readsPart_of_slots (by decide : (["id"] ++ "extraction_policy_id" :: ["outcome"]).Nodup)
    (fun _ => rfl) (buildsPart_second (fun _ _ _ => rfl) fun _ _ _ => ⟨rfl, fun _ => rfl⟩)

theorem readsPart_outcome
    : ReadsPart ofJson "outcome" (withDefault .unknown Outcome.ofJson)
        ⟨outcome, fun outcome task => { task with outcome }⟩ :=
  readsPart_of_slots (by decide : (["id", "extraction_policy_id"] ++ "outcome" :: []).Nodup)
    (fun _ => rfl) (buildsPart_third (fun _ _ _ => rfl) fun _ _ _ => ⟨rfl, fun _ => rfl⟩)

theorem leavesOut {entry : String × (Task → Task)} (member : entry ∈ defaults)
    : LeavesOut ofJson itself entry.1 entry.2 := by
  simp only [defaults, List.mem_cons, List.not_mem_nil, or_false] at member
  rcases member with rfl | rfl
  · exact readsPart_policy.leavesOut rfl
  · exact readsPart_outcome.leavesOut rfl

end Task

namespace Wire

/-- The fields of what names the content that was taken. -/
def contentForm : Form :=
  .record (Form.plain ["content_id"])

/-- The fields of the list of tasks, and of each of them. -/
def tasksForm : Form :=
  .record [("tasks", .list Task.form)]

/-- The fields of a child. -/
def Child.form : Form :=
  .record (Form.plain ["id", "mime_type", "source"])

/-- The fields of the list of children, and of each of them. -/
def listingForm : Form :=
  .record [("content_tree_metadata", .list Child.form)]

/-- The fields of a child that may be left out, with a child that has their defaults. -/
def Child.defaults : List (String × (Child → Child)) :=
  [("mime_type", fun child => { child with mimeType := "" }),
    ("source", fun child => { child with source := "" })]

theorem content_tolerates : Tolerates admits contentForm content :=
  tolerates_record (fun _ => rfl) fun _ _ member => .inl (eq_whole_of_mem_plain member)

theorem readsPart_tasks
    : ReadsPart tasks "tasks" (withDefault [] (list Task.ofJson)) .whole :=
  readsPart_of_slots (by decide : ([] ++ "tasks" :: []).Nodup) (fun _ => rfl)
    (buildsPart_whole fun _ => rfl)

theorem tasks_tolerates : Tolerates admits tasksForm tasks := by
  apply tolerates_record (fun _ => rfl)
  intro name form member
  cases List.mem_singleton.mp member
  exact .inr ⟨_, _, _, _, readsPart_tasks, fun _ => rfl, tolerates_list Task.tolerates⟩

theorem Child.tolerates : Tolerates admits form ofJson :=
  tolerates_record (fun _ => rfl) fun _ _ member => .inl (eq_whole_of_mem_plain member)

theorem Child.leavesOut {entry : String × (Child → Child)} (member : entry ∈ defaults)
    : LeavesOut ofJson itself entry.1 entry.2 := by
  have mimeType : ReadsPart ofJson "mime_type" (withDefault "" text)
      ⟨Child.mimeType, fun mimeType child => { child with mimeType }⟩ :=
    readsPart_of_slots (by decide : (["id"] ++ "mime_type" :: ["source"]).Nodup)
      (fun _ => rfl) (buildsPart_second (fun _ _ _ => rfl) fun _ _ _ => ⟨rfl, fun _ => rfl⟩)
  have source : ReadsPart ofJson "source" (withDefault "" text)
      ⟨Child.source, fun source child => { child with source }⟩ :=
    readsPart_of_slots (by decide : (["id", "mime_type"] ++ "source" :: []).Nodup)
      (fun _ => rfl) (buildsPart_third (fun _ _ _ => rfl) fun _ _ _ => ⟨rfl, fun _ => rfl⟩)
  simp only [defaults, List.mem_cons, List.not_mem_nil, or_false] at member
  rcases member with rfl | rfl
  · exact mimeType.leavesOut rfl
  · exact source.leavesOut rfl

theorem readsPart_listing
    : ReadsPart listing "content_tree_metadata" (withDefault [] (list Child.ofJson)) .whole :=
  readsPart_of_slots (by decide : ([] ++ "content_tree_metadata" :: []).Nodup) (fun _ => rfl)
    (buildsPart_whole fun _ => rfl)

theorem listing_tolerates : Tolerates admits listingForm listing := by
  apply tolerates_record (fun _ => rfl)
  intro name form member
  cases List.mem_singleton.mp member
  exact .inr ⟨_, _, _, _, readsPart_listing, fun _ => rfl, tolerates_list Child.tolerates⟩

end Wire

-----------------------------------------------------------------------------------------
-- Graphs
-----------------------------------------------------------------------------------------

/-- The fields of parameters. -/
def Params.form : Form :=
  .record (Form.plain ["model_name", "key", "system_prompt"])

theorem Params.tolerates : Tolerates admits form ofJson :=
  tolerates_record (fun _ => rfl) fun _ _ member => .inl (eq_whole_of_mem_plain member)

namespace Policy

/-- The fields of a policy, and of its parameters. -/
def form : Form :=
  .record [("extractor", .whole), ("name", .whole), ("input_params", Params.form),
    ("content_source", .whole)]

/-- A policy is made of the parameters in the third slot. -/
theorem readsPart_params
    : ReadsPart ofJson "input_params" (required Params.ofJson)
        ⟨params, fun params policy => { policy with params }⟩ := by
  refine readsPart_of_slots
    (by decide : (["extractor", "name"] ++ "input_params" :: ["content_source"]).Nodup)
    (fun _ => rfl) ?_
  intro before after two one
  obtain ⟨x, y, rfl⟩ := List.length_eq_two.mp two
  obtain ⟨z, rfl⟩ := List.length_eq_one_iff.mp one
  refine ⟨(required text x).bind fun extractor => (required text y).bind fun name =>
    (withDefault none optionalText z).map fun source params => ⟨extractor, name, params, source⟩,
    fun value => ?_, ?_⟩
  · change ((required text x).bind fun extractor => (required text y).bind fun name =>
      (required Params.ofJson value).bind fun params =>
        (withDefault none optionalText z).bind fun source =>
          some (Policy.mk extractor name params source)) = _
    cases required text x with
    | none => rfl
    | some extractor =>
        cases required text y with
        | none => rfl
        | some name =>
            cases required Params.ofJson value <;> cases withDefault none optionalText z <;> rfl
  · intro make isMake
    simp only [Option.mem_def, Option.bind_eq_some_iff, Option.map_eq_some_iff] at isMake
    obtain ⟨extractor, _, name, _, source, _, rfl⟩ := isMake
    exact fun params => ⟨rfl, fun _ => rfl⟩

/-- A policy is made of the source in the fourth slot. -/
theorem readsPart_source
    : ReadsPart ofJson "content_source" (withDefault none optionalText)
        ⟨source, fun source policy => { policy with source }⟩ := by
  refine readsPart_of_slots
    (by decide : (["extractor", "name", "input_params"] ++ "content_source" :: []).Nodup)
    (fun _ => rfl) ?_
  intro before after three none
  obtain ⟨x, y, z, rfl⟩ := List.length_eq_three.mp three
  rw [List.eq_nil_of_length_eq_zero none]
  refine ⟨(required text x).bind fun extractor => (required text y).bind fun name =>
    (required Params.ofJson z).map (Policy.mk extractor name), fun value => ?_, ?_⟩
  · change ((required text x).bind fun extractor => (required text y).bind fun name =>
      (required Params.ofJson z).bind fun params =>
        (withDefault Option.none optionalText value).bind fun source =>
          some (Policy.mk extractor name params source)) = _
    cases required text x with
    | none => rfl
    | some extractor =>
        cases required text y with
        | none => rfl
        | some name =>
            cases required Params.ofJson z <;>
              cases withDefault Option.none optionalText value <;> rfl
  · intro make isMake
    simp only [Option.mem_def, Option.bind_eq_some_iff, Option.map_eq_some_iff] at isMake
    obtain ⟨extractor, _, name, _, params, _, rfl⟩ := isMake
    exact fun source => ⟨rfl, fun _ => rfl⟩

theorem tolerates : Tolerates admits form ofJson := by
  apply tolerates_record (fun _ => rfl)
  intro name form member
  simp only [List.mem_cons, Prod.mk.injEq, List.not_mem_nil, or_false] at member
  rcases member with ⟨_, whole⟩ | ⟨_, whole⟩ | ⟨rfl, rfl⟩ | ⟨_, whole⟩
  · exact .inl whole
  · exact .inl whole
  · exact .inr ⟨_, _, _, _, readsPart_params, fun _ => rfl, Params.tolerates⟩
  · exact .inl whole

theorem leavesOut_source
    : LeavesOut ofJson itself "content_source" fun policy => { policy with source := none } :=
  readsPart_source.leavesOut rfl

end Policy

namespace Graph

/-- The fields of a graph, and of its policies. -/
def form : Form :=
  .record [("name", .whole), ("description", .whole),
    ("extraction_policies", .list Policy.form)]

theorem readsPart_description
    : ReadsPart ofJson "description" (withDefault none optionalText)
        ⟨description, fun description graph => { graph with description }⟩ :=
  readsPart_of_slots
    (by decide : (["name"] ++ "description" :: ["extraction_policies"]).Nodup)
    (fun _ => rfl) (buildsPart_second (fun _ _ _ => rfl) fun _ _ _ => ⟨rfl, fun _ => rfl⟩)

theorem readsPart_policies
    : ReadsPart ofJson "extraction_policies" (required (list Policy.ofJson))
        ⟨policies, fun policies graph => { graph with policies }⟩ :=
  readsPart_of_slots
    (by decide : (["name", "description"] ++ "extraction_policies" :: []).Nodup)
    (fun _ => rfl) (buildsPart_third (fun _ _ _ => rfl) fun _ _ _ => ⟨rfl, fun _ => rfl⟩)

theorem tolerates : Tolerates admits form ofJson := by
  apply tolerates_record (fun _ => rfl)
  intro name form member
  simp only [List.mem_cons, Prod.mk.injEq, List.not_mem_nil, or_false] at member
  rcases member with ⟨_, whole⟩ | ⟨_, whole⟩ | ⟨rfl, rfl⟩
  · exact .inl whole
  · exact .inl whole
  · exact .inr ⟨_, _, _, _, readsPart_policies, fun _ => rfl, tolerates_list Policy.tolerates⟩

end Graph

-----------------------------------------------------------------------------------------
-- Deliveries
-----------------------------------------------------------------------------------------

/-- The fields of a tally. -/
def Tally.form : Form :=
  .record (Form.plain (fieldLimits.map (·.1)))

theorem Tally.tolerates : Tolerates admits form ofJson :=
  tolerates_record (fun _ => rfl) fun _ _ member => .inl (eq_whole_of_mem_plain member)

namespace Delivery

/-- The fields of a delivery, and of its tally. -/
def form : Form :=
  .record (Form.plain ["text", "content_id", "graph_name", "policy_name"]
    ++ [("stats", Tally.form)])

/-- A delivery is made of the tally in its last slot. -/
theorem readsPart_tally
    : ReadsPart ofJson "stats" (required Tally.ofJson)
        ⟨tally, fun tally delivery => { delivery with tally }⟩ := by
  refine readsPart_of_slots
    (by decide : (["text", "content_id", "graph_name", "policy_name"] ++ "stats" :: []).Nodup)
    (fun _ => rfl) ?_
  intro before after four none
  match before, four with
  | [a, b, c, d], _ =>
      rw [List.eq_nil_of_length_eq_zero none]
      refine ⟨(required Json.Decode.text a).bind fun text =>
        (required Json.Decode.text b).bind fun content =>
          (required Json.Decode.text c).bind fun graph =>
            (required Json.Decode.text d).map (Delivery.mk text content graph),
        fun value => ?_, ?_⟩
      · change ((required Json.Decode.text a).bind fun text =>
          (required Json.Decode.text b).bind fun content =>
            (required Json.Decode.text c).bind fun graph =>
              (required Json.Decode.text d).bind fun policy =>
                (required Tally.ofJson value).bind fun tally =>
                  some (Delivery.mk text content graph policy tally)) = _
        cases required Json.Decode.text a with
        | none => rfl
        | some text =>
            cases required Json.Decode.text b with
            | none => rfl
            | some content =>
                cases required Json.Decode.text c with
                | none => rfl
                | some graph =>
                    cases required Json.Decode.text d <;> cases required Tally.ofJson value <;> rfl
      · intro make isMake
        simp only [Option.mem_def, Option.bind_eq_some_iff, Option.map_eq_some_iff] at isMake
        obtain ⟨text, _, content, _, graph, _, policy, _, rfl⟩ := isMake
        exact fun tally => ⟨rfl, fun _ => rfl⟩

theorem tolerates : Tolerates admits form ofJson := by
  apply tolerates_record (fun _ => rfl)
  intro name form member
  rcases List.mem_append.mp member with plain | stats
  · exact .inl (eq_whole_of_mem_plain plain)
  · cases List.mem_singleton.mp stats
    exact .inr ⟨_, _, _, _, readsPart_tally, fun _ => rfl, Tally.tolerates⟩

end Delivery

-----------------------------------------------------------------------------------------
-- States of jobs
-----------------------------------------------------------------------------------------

theorem Json.isSoundFields_iff {fields : List (Option String × Json)}
    : isSoundFields fields = true
      ↔ ∀ field ∈ fields, field.1.isSome = true ∧ field.2.isSound = true := by
  induction fields with
  | nil => exact iff_of_true rfl fun _ member => by cases member
  | cons field fields ih =>
      rw [isSoundFields, Bool.and_eq_true, Bool.and_eq_true, ih, List.forall_mem_cons]

theorem Json.depthFields_lt_iff {fields : List (Option String × Json)} {bound : Nat}
    (positive : 0 < bound)
    : depthFields fields < bound ↔ ∀ field ∈ fields, field.2.depth < bound := by
  induction fields with
  | nil => exact iff_of_true positive fun _ member => by cases member
  | cons field fields ih => rw [depthFields, Nat.max_lt, ih, List.forall_mem_cons]

namespace Status

/-- The fields of a state. -/
def form : Form :=
  .record (Form.plain ["state", "reason"])

/-- The tag of a state. -/
def tagForm : Form :=
  .record (Form.plain ["state"])

/-- All of the value can be looked at before the tag beside it is known. -/
def IsBearable (value : Json) : Prop :=
  value.isSound = true ∧ value.depth < greatestDepth

/-- All fields can be looked at, whether or not they are known. -/
def AreBearable (fields : List (Option String × Json)) : Prop :=
  ∀ field ∈ fields, field.1.isSome = true ∧ IsBearable field.2

variable {fields before after : List (Option String × Json)}

theorem areBearable_iff
    : AreBearable fields
      ↔ (Json.object fields).isSound = true ∧ ¬ greatestDepth < (Json.object fields).depth := by
  have sound : (Json.object fields).isSound = isSoundFields fields := rfl
  have deep : (Json.object fields).depth = depthFields fields + 1 := rfl
  rw [sound, deep, isSoundFields_iff, Nat.lt_succ_iff, Nat.not_le, depthFields_lt_iff (by decide)]
  constructor
  · intro bearable
    exact ⟨fun field member => ⟨(bearable field member).1, (bearable field member).2.1⟩,
      fun field member => (bearable field member).2.2⟩
  · rintro ⟨sound, shallow⟩ field member
    exact ⟨(sound field member).1, (sound field member).2, shallow field member⟩

/-- The state in an object all of whose fields can be looked at. -/
theorem ofJson_object (bearable : AreBearable fields)
    : ofJson (.object fields)
      = (do
          let tag ← Json.Decode.text (← (← entry fields "state"))
          ofTag tag (← reasonBeside tag fields)) := by
  rw [areBearable_iff] at bearable
  exact if_neg (by simpa using bearable)

theorem ofJson_object_of_unbearable (unbearable : ¬ AreBearable fields)
    : ofJson (.object fields) = none := by
  rw [areBearable_iff, not_and_or, not_not] at unbearable
  exact if_pos (by simpa using unbearable)

/-- The state in an object is told by its entries, if all of its fields can be looked at. -/
theorem ofJson_object_congr (bearable : AreBearable before ↔ AreBearable after)
    (state : entry before "state" = entry after "state")
    (reason : entry before "reason" = entry after "reason")
    : ofJson (.object before) = ofJson (.object after) := by
  have beside (tag : String) : reasonBeside tag before = reasonBeside tag after := by
    unfold reasonBeside
    rw [reason]
  by_cases all : AreBearable before
  · rw [ofJson_object all, ofJson_object (bearable.mp all), state]
    simp only [beside]
  · rw [ofJson_object_of_unbearable all,
      ofJson_object_of_unbearable fun other => all (bearable.mpr other)]

theorem keeps {json other : Json} (edit : Edit IsBearable form json other)
    : ofJson other = ofJson json := by
  cases edit with
  | order perm =>
      refine ofJson_object_congr ?_ (entry_perm perm.symm _) (entry_perm perm.symm _)
      exact forall_congr' fun field => imp_congr_left perm.symm.mem_iff
  | @unknown _ front behind name value fresh admitted =>
      rw [map_plain, List.mem_cons, List.mem_singleton, not_or] at fresh
      refine ofJson_object_congr ?_ (entry_congr (entriesOf_insert_of_ne fresh.1))
        (entry_congr (entriesOf_insert_of_ne fresh.2))
      unfold AreBearable
      rw [List.forall_mem_append, List.forall_mem_cons, List.forall_mem_append]
      exact and_congr_right fun _ => and_iff_right ⟨rfl, admitted⟩
  | field isKnown inside =>
      cases eq_whole_of_mem_plain isKnown
      cases inside

/-- A state whose tag comes twice is none. -/
theorem refuses {json : Json} (repeats : Repeats tagForm json) : ofJson json = none := by
  cases repeats with
  | @twice _ front middle behind name first second isKnown =>
      rw [map_plain, List.mem_singleton] at isKnown
      subst isKnown
      by_cases all : AreBearable
          (front ++ (some "state", first) :: (middle ++ (some "state", second) :: behind))
      · rw [ofJson_object all, entry_twice]
        rfl
      · exact ofJson_object_of_unbearable all
  | field isKnown inside =>
      cases eq_whole_of_mem_plain isKnown
      cases inside

end Status
end DocPipeline
