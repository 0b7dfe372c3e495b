import DocPipeline.Json.Basic

/-! Writing JSON, on one line without spaces or spread over lines indented by two. -/

namespace DocPipeline.Json.Writer

/-- A digit of a number written in hexadecimal. -/
def hexDigit (n : Nat) : Char :=
  if n < 10 then Char.ofNat (48 + n) else Char.ofNat (87 + n)

/-- A character inside a string. Quotes, backslashes and controls are escaped, all else stands for
itself.
-/
def char (c : Char) : List Char :=
  if c = '"' then ['\\', '"']
  else if c = '\\' then ['\\', '\\']
  else if c = '\x08' then ['\\', 'b']
  else if c = '\x0c' then ['\\', 'f']
  else if c = '\n' then ['\\', 'n']
  else if c = '\r' then ['\\', 'r']
  else if c = '\t' then ['\\', 't']
  else if c.toNat < 0x20 then
    ['\\', 'u', '0', '0', hexDigit (c.toNat / 16), hexDigit (c.toNat % 16)]
  else [c]

/-- A text between quotes. -/
def text (s : String) : List Char :=
  '"' :: s.toList.flatMap char ++ ['"']

/-- A string; one that holds no text is written as an empty one. -/
def string (s : Option String) : List Char :=
  text (s.getD "")

/-- A line break and so many levels of indentation. -/
def margin (depth : Nat) : List Char :=
  '\n' :: List.replicate (2 * depth) ' '

mutual

/-- All on one line. -/
def compact : Json → List Char
  | .null => "null".toList
  | .bool value => (if value then "true" else "false").toList
  | .number spelling => spelling
  | .string s => string s
  | .array [] => ['[', ']']
  | .array (item :: items) => '[' :: compact item ++ compactItems items
  | .object [] => ['{', '}']
  | .object ((key, value) :: fields) =>
    '{' :: string key ++ ':' :: compact value ++ compactFields fields

/-- The items after the first, and the closing bracket. -/
def compactItems : List Json → List Char
  | [] => [']']
  | item :: items => ',' :: compact item ++ compactItems items

/-- The fields after the first, and the closing brace. -/
def compactFields : List (Option String × Json) → List Char
  | [] => ['}']
  | (key, value) :: fields =>
    ',' :: string key ++ ':' :: compact value ++ compactFields fields

end

mutual

/-- One item or field a line, each level indented by two more. -/
def spread (depth : Nat) : Json → List Char
  | .array (item :: items) =>
    '[' :: margin (depth + 1) ++ spread (depth + 1) item ++ spreadItems depth items
  | .object ((key, value) :: fields) =>
    '{' :: margin (depth + 1) ++ string key ++ ':' :: ' ' :: spread (depth + 1) value
      ++ spreadFields depth fields
  | .array [] => ['[', ']']
  | .object [] => ['{', '}']
  | .null => "null".toList
  | .bool value => (if value then "true" else "false").toList
  | .number spelling => spelling
  | .string s => string s

/-- The items after the first, and the closing bracket. -/
def spreadItems (depth : Nat) : List Json → List Char
  | [] => margin depth ++ [']']
  | item :: items =>
    ',' :: margin (depth + 1) ++ spread (depth + 1) item ++ spreadItems depth items

/-- The fields after the first, and the closing brace. -/
def spreadFields (depth : Nat) : List (Option String × Json) → List Char
  | [] => margin depth ++ ['}']
  | (key, value) :: fields =>
    ',' :: margin (depth + 1) ++ string key ++ ':' :: ' ' :: spread (depth + 1) value
      ++ spreadFields depth fields

end

end DocPipeline.Json.Writer

namespace DocPipeline.Json

/-- The value on one line. -/
def compact (json : Json) : String :=
  String.ofList (Writer.compact json)

/-- The value spread over lines. -/
def pretty (json : Json) : String :=
  String.ofList (Writer.spread 0 json)

end DocPipeline.Json
