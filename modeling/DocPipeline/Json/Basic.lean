import DocPipeline.Number.Double
import DocPipeline.Text.Utf8

/-! JSON values as they stand in a text: numbers by their spelling, fields in their order and
with their repetitions, and strings also when they hold what is no text.
-/

namespace DocPipeline

/-- A JSON value. -/
inductive Json where
  | null
  | bool (value : Bool)
  /-- A number, by its spelling. -/
  | number (spelling : List Char)
  /-- A string; none when it holds a lone surrogate or a byte of no character. -/
  | string (text : Option String)
  | array (items : List Json)
  | object (fields : List (Option String × Json))

namespace Json

/-- A whole number. -/
def natural (n : Nat) : Json :=
  .number (Nat.toDigits 10 n)

/-- A string that holds a text. -/
def text (s : String) : Json :=
  .string (some s)

/-- An object of fields that are known by name. -/
def record (fields : List (String × Json)) : Json :=
  .object (fields.map fun field => (some field.1, field.2))

/-- A field that is left out when there is nothing in it. -/
def optionalField (key : String) (value : Option String) : List (String × Json) :=
  (value.map fun s => (key, text s)).toList

/-- The finite number that a spelling stands for in double precision. -/
def isFinite (spelling : List Char) : Bool :=
  ((Number.decimal? spelling).bind Number.Double.ofDecimal?).isSome

mutual

/-- How deep arrays and objects are nested; a value that is neither has no depth. -/
def depth : Json → Nat
  | array items => depthItems items + 1
  | object fields => depthFields fields + 1
  | _ => 0

/-- The depth of the deepest item. -/
def depthItems : List Json → Nat
  | [] => 0
  | item :: items => max (depth item) (depthItems items)

/-- The depth of the deepest field. -/
def depthFields : List (Option String × Json) → Nat
  | [] => 0
  | (_, value) :: fields => max (depth value) (depthFields fields)

end

mutual

/-- All strings hold texts, and all numbers are finite in double precision. -/
def isSound : Json → Bool
  | number spelling => isFinite spelling
  | string s => s.isSome
  | array items => isSoundItems items
  | object fields => isSoundFields fields
  | _ => true

/-- All items are sound. -/
def isSoundItems : List Json → Bool
  | [] => true
  | item :: items => isSound item && isSoundItems items

/-- All fields are sound. -/
def isSoundFields : List (Option String × Json) → Bool
  | [] => true
  | (key, value) :: fields => key.isSome && isSound value && isSoundFields fields

end

end Json
end DocPipeline
