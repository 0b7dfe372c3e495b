import DocPipeline.Url.Parse

/-! Longer addresses made from a base and a list of names, one segment for each name, and the name
that the last segment of an address suggests for a file.
-/

namespace DocPipeline.Url

/-- The address can carry a path of segments. -/
def carriesPath (url : Url) : Bool :=
  match url.path with
  | .segments _ => true
  | .opaquePath _ => false

/-- The segments without an empty one at the end, unless it is the only one. -/
def withoutEmptyEnd (segments : List (List Char)) : List (List Char) :=
  if 1 < segments.length && segments.getLast? = some [] then segments.dropLast else segments

/-- The segments with one for a name. The names of this directory and the one above add nothing;
an only segment that is empty gives way.
-/
def addName (kind : Kind) (segments : List (List Char)) (name : List Char)
    : List (List Char) :=
  if name = ['.'] || name = ['.', '.'] then segments
  else
    let reserved := if kind == .other then inSegment else inWebSegment
    let segment := encode reserved (name.filter (!isIgnored ·))
    addSegment kind true (if segments = [[]] then [] else segments) segment

/-- The address with a segment for each name behind its own ones. -/
def extend (url : Url) (names : List String) : Url :=
  let start := withoutEmptyEnd url.segments
  { url with path := .segments ((names.map String.toList).foldl (addName url.kind) start) }

/-- The name of a file whose address suggests none. -/
def standardFileName : String := "downloaded.pdf"

/-- The name of the file at an address: its last segment, if that has an extension. -/
def fileName (s : String) : String :=
  match parse s with
  | .error _ => standardFileName
  | .ok url =>
    match url.segments.getLast? with
    | some last =>
      if !last.isEmpty && last.contains '.' then String.ofList last else standardFileName
    | none => standardFileName

end DocPipeline.Url
