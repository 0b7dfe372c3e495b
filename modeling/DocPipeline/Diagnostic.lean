import DocPipeline.Text.Quoted

/-! Diagnostic texts: trees of named parts, written on one line or spread over many. -/

namespace DocPipeline

/-- A diagnostic text as a tree of named parts. -/
inductive Diagnostic where
  /-- A text that stands as it is. -/
  | leaf (text : String)
  /-- A name with one part in parentheses. -/
  | wrapped (name : String) (part : Diagnostic)
  /-- A name with named parts. -/
  | record (name : String) (fields : List (String × Diagnostic))
  /-- A list of parts. -/
  | list (parts : List Diagnostic)

namespace Diagnostic

mutual

/-- All on one line. -/
def compact : Diagnostic → String
  | leaf text => text
  | wrapped name part => name ++ "(" ++ compact part ++ ")"
  | record name fields =>
    name ++ " \x7b " ++ String.intercalate ", " (compactFields fields) ++ " \x7d"
  | list parts => "[" ++ String.intercalate ", " (compactParts parts) ++ "]"

/-- The named parts, each on one line. -/
def compactFields : List (String × Diagnostic) → List String
  | [] => []
  | (name, part) :: rest => (name ++ ": " ++ compact part) :: compactFields rest

/-- The parts, each on one line. -/
def compactParts : List Diagnostic → List String
  | [] => []
  | part :: rest => compact part :: compactParts rest

end

/-- So many levels of indentation. -/
def margin (depth : Nat) : String :=
  String.ofList (List.replicate (4 * depth) ' ')

mutual

/-- One part a line, each level indented by four more. -/
def spread (depth : Nat) : Diagnostic → String
  | leaf text => text
  | wrapped name part =>
    name ++ "(\n" ++ margin (depth + 1) ++ spread (depth + 1) part ++ ",\n" ++ margin depth
      ++ ")"
  | record name fields =>
    name ++ " \x7b\n" ++ spreadFields (depth + 1) fields ++ margin depth ++ "\x7d"
  | list parts =>
    if parts.isEmpty then "[]"
    else "[\n" ++ spreadParts (depth + 1) parts ++ margin depth ++ "]"

/-- The named parts, each on its own lines. -/
def spreadFields (depth : Nat) : List (String × Diagnostic) → String
  | [] => ""
  | (name, part) :: rest =>
    margin depth ++ name ++ ": " ++ spread depth part ++ ",\n" ++ spreadFields depth rest

/-- The parts, each on its own lines. -/
def spreadParts (depth : Nat) : List Diagnostic → String
  | [] => ""
  | part :: rest =>
    margin depth ++ spread depth part ++ ",\n" ++ spreadParts depth rest

end

/-- A quoted text. -/
def text (s : String) : Diagnostic :=
  leaf (Text.quoted s)

/-- A part that may be absent. -/
def option (part : Option Diagnostic) : Diagnostic :=
  match part with
  | some part => wrapped "Some" part
  | none => leaf "None"

end Diagnostic

end DocPipeline
