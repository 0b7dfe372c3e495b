import DocPipeline.Json.Decode
import DocPipeline.Json.Writer

/-! How far a job has come, and the JSON form of that. -/

namespace DocPipeline

/-- The state of a job. -/
inductive Status where
  | pending
  | completed
  | failed (reason : String)
deriving DecidableEq, Repr

namespace Status

/-- The job will not go on. -/
def isTerminal : Status → Bool
  | pending => false
  | _ => true

/-- The state in words. -/
def text : Status → String
  | pending => "pending"
  | completed => "completed"
  | failed reason => "failed (" ++ reason ++ ")"

/-- The state as an object with a tag. -/
def toJson : Status → Json
  | pending => .record [("state", .text "pending")]
  | completed => .record [("state", .text "completed")]
  | failed reason => .record [("state", .text "failed"), ("reason", .text reason)]

/-- How deep a state may be nested, unknown fields included. -/
def greatestDepth : Nat := 127

/-- The state with the tag, given the reason that stands beside it. -/
def ofTag (tag : String) (reason : Option Json) : Option Status :=
  match tag with
  | "pending" => some pending
  | "completed" => some completed
  | "failed" => (reason.bind Json.Decode.text).map failed
  | _ => none

/-- The reason beside a tag; only a failure looks whether it is there once. -/
def reasonBeside (tag : String) (fields : List (Option String × Json))
    : Option (Option Json) :=
  if tag = "failed" then Json.Decode.entry fields "reason" else some none

/-- The state in an object with a tag, or in an array that begins with the tag. The whole value
is looked at before the tag is known, so all of it must be sound and of bounded depth.
-/
def ofJson (json : Json) : Option Status :=
  if !json.isSound || greatestDepth < json.depth then none
  else
    match json with
    | .object fields => do
      let tag ← Json.Decode.text (← (← Json.Decode.entry fields "state"))
      ofTag tag (← reasonBeside tag fields)
    | .array [tag] => do
      let tag ← Json.Decode.text tag
      if tag = "failed" then none else ofTag tag none
    | .array [tag, reason] => do
      let tag ← Json.Decode.text tag
      if tag = "failed" then ofTag tag (some reason) else none
    | _ => none

end Status
end DocPipeline
