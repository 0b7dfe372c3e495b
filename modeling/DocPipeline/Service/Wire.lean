import DocPipeline.Job.Task

/-! What a service sends back: the name of a content that was taken, the tasks of a content, and
the list of what was made of it.
-/

namespace DocPipeline.Wire

/-- The name of the content that was taken. -/
def content (json : Json) : Option String := do
  match ← Json.Decode.slots ["content_id"] json with
  | [content] => Json.Decode.required Json.Decode.text content
  | _ => none

/-- The tasks of a content. -/
def tasks (json : Json) : Option (List Task) := do
  match ← Json.Decode.slots ["tasks"] json with
  | [tasks] => Json.Decode.withDefault [] (Json.Decode.list Task.ofJson) tasks
  | _ => none

/-- One of the things made of a content. -/
structure Child where
  id : String
  mimeType : String
  /-- The policy that made it. -/
  source : String
deriving DecidableEq, Repr

/-- A child as the service describes it. -/
def Child.ofJson (json : Json) : Option Child := do
  match ← Json.Decode.slots ["id", "mime_type", "source"] json with
  | [id, mimeType, source] =>
    let id ← Json.Decode.required Json.Decode.text id
    let mimeType ← Json.Decode.withDefault "" Json.Decode.text mimeType
    let source ← Json.Decode.withDefault "" Json.Decode.text source
    return ⟨id, mimeType, source⟩
  | _ => none

/-- Everything made of a content. -/
def listing (json : Json) : Option (List Child) := do
  match ← Json.Decode.slots ["content_tree_metadata"] json with
  | [children] => Json.Decode.withDefault [] (Json.Decode.list Child.ofJson) children
  | _ => none

end DocPipeline.Wire
