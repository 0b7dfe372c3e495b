import DocPipeline.Json.Reader

/-! Reading values of a known shape from JSON. A record is given as an object, whose unknown fields
are passed over, or as an array of its fields in their order.
-/

namespace DocPipeline.Json.Decode

/-- The values of the entries under a key. -/
def entriesOf (key : String) (fields : List (Option String × Json)) : List Json :=
  (fields.filter (·.1 = some key)).map (·.2)

/-- The entry under a key, which must not be there twice. -/
def entry (fields : List (Option String × Json)) (key : String) : Option (Option Json) :=
  match entriesOf key fields with
  | [] => some none
  | [value] => some (some value)
  | _ => none

/-- The values of the named fields, none for each field that is left out. In an array only fields
at the end can be left out.
-/
def slots (names : List String) : Json → Option (List (Option Json))
  | .object fields =>
    if fields.all (·.1.isSome) then names.mapM (entry fields) else none
  | .array items =>
    if items.length ≤ names.length then
      some (items.map some ++ List.replicate (names.length - items.length) none)
    else none
  | _ => none

/-- A text. -/
def text : Json → Option String
  | .string s => s
  | _ => none

/-- A text, or nothing. -/
def optionalText : Json → Option (Option String)
  | .null => some none
  | json => (text json).map some

/-- A whole number below the limit, written without sign, fraction and exponent. -/
def natural (limit : Nat) : Json → Option Nat
  | .number spelling =>
    if spelling.all Char.isDigit then
      let n := Number.ofDigits spelling
      if n < limit then some n else none
    else none
  | _ => none

/-- A list of values. -/
def list {α : Type} (read : Json → Option α) : Json → Option (List α)
  | .array items => items.mapM read
  | _ => none

/-- A field that must be there. -/
def required {α : Type} (read : Json → Option α) (slot : Option Json) : Option α :=
  slot.bind read

/-- A field with a value to be taken when it is left out. -/
def withDefault {α : Type} (default : α) (read : Json → Option α) : Option Json → Option α
  | some json => read json
  | none => some default

end DocPipeline.Json.Decode
