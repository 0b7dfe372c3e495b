import DocPipeline.Json.Decode
import DocPipeline.Json.Writer
import DocPipeline.Number.Power

/-! What a successful run delivers: the text, where it came from, and what it took to get it. -/

namespace DocPipeline

/-- Sizes, counts, and the time each phase took in milliseconds. -/
structure Tally where
  /-- Bytes fetched over the network; zero for a local document. -/
  downloadedBytes : Nat
  /-- The size of the document. -/
  uploadedBytes : Nat
  /-- How often the state of the job was asked for. -/
  checks : Nat
  /-- The length of the text in characters. -/
  characters : Nat
  downloadMillis : Nat
  uploadMillis : Nat
  waitMillis : Nat
  fetchMillis : Nat
  totalMillis : Nat
deriving DecidableEq, Repr

/-- The text of a document, and how it was obtained. -/
structure Delivery where
  text : String
  /-- The name that the service gave to the document. -/
  content : String
  graph : String
  policy : String
  tally : Tally
deriving DecidableEq, Repr

namespace Tally

/-- The names of the fields, in order, with the limit of each count. -/
def fieldLimits : List (String × Nat) :=
  [("downloaded_bytes", 2 ^ 64), ("uploaded_bytes", 2 ^ 64), ("poll_attempts", 2 ^ 32),
    ("output_chars", 2 ^ 64), ("download_duration_ms", 2 ^ 64),
    ("upload_duration_ms", 2 ^ 64), ("wait_duration_ms", 2 ^ 64),
    ("fetch_duration_ms", 2 ^ 64), ("total_duration_ms", 2 ^ 64)]

/-- The counts in the order of their fields. -/
def toList (t : Tally) : List Nat :=
  [t.downloadedBytes, t.uploadedBytes, t.checks, t.characters, t.downloadMillis,
    t.uploadMillis, t.waitMillis, t.fetchMillis, t.totalMillis]

/-- The tally with these counts. -/
def ofList? : List Nat → Option Tally
  | [a, b, c, d, e, f, g, h, i] => some ⟨a, b, c, d, e, f, g, h, i⟩
  | _ => none

/-- All counts, each under its name. -/
def toJson (t : Tally) : Json :=
  .record ((fieldLimits.map (·.1)).zip (t.toList.map .natural))

/-- A tally whose counts are all there and within their limits. -/
def ofJson (json : Json) : Option Tally := do
  let slots ← Json.Decode.slots (fieldLimits.map (·.1)) json
  let counts ← (fieldLimits.zip slots).mapM fun (field, slot) =>
    Json.Decode.required (Json.Decode.natural field.2) slot
  ofList? counts

end Tally

namespace Delivery

/-- The text with all that is known about it. -/
def toJson (d : Delivery) : Json :=
  .record
    [("text", .text d.text), ("content_id", .text d.content), ("graph_name", .text d.graph),
      ("policy_name", .text d.policy), ("stats", d.tally.toJson)]

/-- A delivery that is complete. -/
def ofJson (json : Json) : Option Delivery := do
  match ← Json.Decode.slots ["text", "content_id", "graph_name", "policy_name", "stats"] json with
  | [text, content, graph, policy, tally] =>
    let text ← Json.Decode.required Json.Decode.text text
    let content ← Json.Decode.required Json.Decode.text content
    let graph ← Json.Decode.required Json.Decode.text graph
    let policy ← Json.Decode.required Json.Decode.text policy
    let tally ← Json.Decode.required Tally.ofJson tally
    return ⟨text, content, graph, policy, tally⟩
  | _ => none

end Delivery
end DocPipeline
