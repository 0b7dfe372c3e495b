import DocPipeline.Files.Path
import DocPipeline.Web.Request

/-! A file as the one part of a form: its name, its type and its bytes. -/

namespace DocPipeline.Form

/-- The name of a file whose path has none. -/
def standardFileName : String := "upload.bin"

/-- The name under which the file at a path is sent. -/
def fileName (path : String) : String :=
  ((Path.fileName? path).map String.ofList).getD standardFileName

/-- The type of the file at a path, by the extension of its name. -/
def mimeType (path : String) : String :=
  match (Path.fileName? path).bind Path.extension? with
  | some extension =>
    match String.ofList (extension.map Char.toLower) with
    | "pdf" => "application/pdf"
    | "txt" => "text/plain"
    | _ => "application/octet-stream"
  | none => "application/octet-stream"

/-- Marks that a name in a head has only behind a backslash. -/
def isGuarded (c : Char) : Bool :=
  c == '"' || c == '\\' || c == '\r' || c == '\n'

/-- A name as it stands in a head. -/
def guarded (name : String) : List Char :=
  name.toList.flatMap fun c => if isGuarded c then ['\\', c] else [c]

/-- The head of the part that holds a file. -/
def head (name type : String) : Bytes :=
  Text.Utf8.encode
    ("Content-Disposition: form-data; name=\"file\"; filename=\""
      ++ String.ofList (guarded name) ++ "\"\r\nContent-Type: " ++ type)

/-- The form with the file at a path. -/
def ofFile (path : String) (content : Bytes) : Web.Payload :=
  .form (head (fileName path) (mimeType path)) content

end DocPipeline.Form
