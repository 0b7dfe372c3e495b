import DocPipeline.Url.Basic
import DocPipeline.Url.Host

/-! Reading addresses: whole ones, and those that are given relative to another one. -/

namespace DocPipeline.Url

/-- Tabs and line ends count for nothing inside an address. -/
def isIgnored (c : Char) : Bool :=
  c == '\t' || c == '\n' || c == '\r'

/-- Controls and spaces around an address do not belong to it. -/
def isPadding (c : Char) : Bool :=
  c.toNat ≤ 0x20

/-- A text as an address is read from it. -/
def cleaned (s : String) : List Char :=
  let cs := (s.toList.dropWhile isPadding).reverse.dropWhile isPadding
  cs.reverse.filter (!isIgnored ·)

/-- A character of a scheme after its first letter. -/
def isSchemeChar (c : Char) : Bool :=
  c.isAlphanum || c == '+' || c == '-' || c == '.'

/-- The scheme at the front, in small letters, and what stands behind its colon. -/
def splitScheme (cs : List Char) : Option (List Char × List Char) :=
  let name := cs.takeWhile isSchemeChar
  match name.head?.any Char.isAlpha, cs.dropWhile isSchemeChar with
  | true, ':' :: rest => some (name.map Char.toLower, rest)
  | _, _ => none

/-- A slash, or a backslash where that counts as one. -/
def isSlash (kind : Kind) (c : Char) : Bool :=
  c == '/' || (kind != .other && c == '\\')

/-- What ends the authority of an address. -/
def endsAuthority (kind : Kind) (c : Char) : Bool :=
  isSlash kind c || c == '?' || c == '#'

/-- The path ends before its query or fragment. -/
def endsPath (c : Char) : Bool :=
  c == '?' || c == '#'

/-- The segment means the directory itself. -/
def isHere (segment : List Char) : Bool :=
  [".", "%2e"].contains (String.ofList (segment.map Char.toLower))

/-- The segment means the directory above. -/
def isAbove (segment : List Char) : Bool :=
  ["..", "%2e.", ".%2e", "%2e%2e"].contains (String.ofList (segment.map Char.toLower))

/-- The letter of a drive, with its colon or what stands for one. -/
def isDrive (segment : List Char) : Bool :=
  match segment with
  | [c, d] => c.isAlpha && (d == ':' || d == '|')
  | _ => false

/-- The segments without the last one; the drive of a file stays. -/
def above (kind : Kind) (segments : List (List Char)) : List (List Char) :=
  match segments with
  | [drive] => if kind == .file && isDrive drive then segments else []
  | _ => segments.dropLast

/-- The segments with one more, which may be one of dots. At the end such a segment leaves an
empty one behind.
-/
def addSegment (kind : Kind) (last : Bool) (segments : List (List Char))
    (segment : List Char) : List (List Char) :=
  if isAbove segment then above kind segments ++ (if last then [[]] else [])
  else if isHere segment then segments ++ (if last then [[]] else [])
  else if kind == .file && segments.isEmpty && isDrive segment then
    [segment.take 1 ++ [':']]
  else segments ++ [segment]

/-- The segments between slashes, with the one in progress read backwards. -/
def segmentsFrom (kind : Kind) (segments : List (List Char)) (current : List Char)
    : List Char → List (List Char)
  | [] => addSegment kind true segments (encode inPath current.reverse)
  | c :: rest =>
    if isSlash kind c then
      segmentsFrom kind (addSegment kind false segments (encode inPath current.reverse)) []
        rest
    else segmentsFrom kind segments (c :: current) rest

/-- The path behind its first slash, put after the segments of a directory. -/
def pathAfter (kind : Kind) (directory : List (List Char)) (cs : List Char) : Path :=
  .segments (segmentsFrom kind directory [] cs)

/-- The path of an address with an authority. -/
def pathOf (kind : Kind) (cs : List Char) : Path :=
  match cs with
  | c :: rest => if isSlash kind c then pathAfter kind [] rest else pathAfter kind [] cs
  | [] => if kind == .other then .segments [] else .segments [[]]

/-- The characters that a query reserves. -/
def queryReserved (kind : Kind) : Char → Bool :=
  if kind == .other then inQuery else inWebQuery

/-- The query and the fragment behind a path. -/
def tailOf (kind : Kind) (cs : List Char) : Option (List Char) × Option (List Char) :=
  let fragment (cs : List Char) : Option (List Char) :=
    match cs with
    | '#' :: rest => some (encode inFragment rest)
    | _ => none
  match cs with
  | '?' :: rest =>
    (some (encode (queryReserved kind) (rest.takeWhile (· != '#'))),
      fragment (rest.dropWhile (· != '#')))
  | _ => (none, fragment cs)

/-- The parts of an authority. -/
structure Authority where
  username : List Char
  password : List Char
  host : List Char
  portNumber : Option Nat

/-- The user information before the last at sign, split at its first colon, and the rest. -/
def splitUser (cs : List Char) : Option (List Char × List Char) × List Char :=
  if cs.contains '@' then
    let host := (cs.reverse.takeWhile (· != '@')).reverse
    let user := cs.take (cs.length - host.length - 1)
    (some (user.takeWhile (· != ':'), (user.dropWhile (· != ':')).drop 1), host)
  else (none, cs)

/-- The host at the front, to a colon outside brackets, and the rest. -/
def splitHost (inside : Bool) : List Char → List Char × List Char
  | [] => ([], [])
  | c :: rest =>
    if c == ':' && !inside then ([], c :: rest)
    else
      let inside := if c == '[' then true else if c == ']' then false else inside
      let (host, behind) := splitHost inside rest
      (c :: host, behind)

/-- The number behind a host; none when it is left out or the usual one. -/
def portNumberOf (scheme : List Char) (cs : List Char) : Except Fault (Option Nat) :=
  match cs with
  | [] => .ok none
  | _ :: text =>
    let digits := text.takeWhile Char.isDigit
    let n := Nat.ofDigitChars 10 digits 0
    if 65535 < n then .error .badNumber
    else if !text.all Char.isDigit then .error .badNumber
    else if digits.isEmpty || usualNumber? scheme = some n then .ok none
    else .ok (some n)

/-- The authority of an address, without the path behind it. -/
def authority (scheme : List Char) (cs : List Char) : Except Fault Authority := do
  let kind := kindOf scheme
  let (user, rest) := splitUser cs
  let (hostPart, numberPart) := splitHost false rest
  if hostPart.isEmpty && (kind == .server || !numberPart.isEmpty || user.isSome) then
    throw .emptyHost
  let host ← if kind == .server then Host.server hostPart else Host.other hostPart
  let portNumber ← portNumberOf scheme numberPart
  let (username, password) := user.getD ([], [])
  return ⟨encode inUserInfo username, encode inUserInfo password, host, portNumber⟩

/-- An address with an authority, behind its slashes. -/
def withAuthority (scheme : List Char) (cs : List Char) : Except Fault Url := do
  let kind := kindOf scheme
  let front := cs.takeWhile fun c => !endsAuthority kind c
  let rest := cs.dropWhile fun c => !endsAuthority kind c
  let parts ← authority scheme front
  let (query, fragment) := tailOf kind (rest.dropWhile fun c => !endsPath c)
  return {
    scheme := scheme
    username := parts.username
    password := parts.password
    host := some parts.host
    portNumber := parts.portNumber
    path := pathOf kind (rest.takeWhile fun c => !endsPath c)
    query := query
    fragment := fragment }

/-- An address without an authority. -/
def withoutAuthority (scheme : List Char) (host : Option (List Char)) (path : Path)
    (rest : List Char) : Url :=
  let (query, fragment) := tailOf (kindOf scheme) rest
  ⟨scheme, [], [], host, none, path, query, fragment⟩

/-- The path and the host of a file behind two slashes. -/
def fileParts (cs : List Char) : Except Fault (List Char × Path) := do
  let front := cs.takeWhile fun c => !endsAuthority .file c
  let rest := cs.dropWhile fun c => !endsAuthority .file c
  if isDrive front then return ([], pathAfter .file [] cs)
  if front.isEmpty then return ([], pathOf .file rest)
  let host ← Host.server front
  return (if host = "localhost".toList then [] else host, pathOf .file rest)

/-- The address of a file, behind its scheme. -/
def file (cs : List Char) : Except Fault Url := do
  let before := cs.takeWhile fun c => !endsPath c
  let behind := cs.dropWhile fun c => !endsPath c
  let (host, path) ←
    match before with
    | c :: d :: rest =>
      if isSlash .file c && isSlash .file d then fileParts rest
      else pure ([], pathOf .file before)
    | _ => pure ([], pathOf .file before)
  return withoutAuthority "file".toList (some host) path behind

/-- An address behind its scheme. -/
def afterScheme (scheme : List Char) (cs : List Char) : Except Fault Url :=
  match kindOf scheme with
  | .server => withAuthority scheme (cs.dropWhile (isSlash .server))
  | .file => file cs
  | .other =>
    let before := cs.takeWhile fun c => !endsPath c
    let behind := cs.dropWhile fun c => !endsPath c
    match cs with
    | '/' :: '/' :: rest => withAuthority scheme rest
    | '/' :: _ => .ok (withoutAuthority scheme none (pathAfter .other [] before.tail) behind)
    | _ => .ok (withoutAuthority scheme none (.opaquePath (encode isControl before)) behind)

/-- The address that a text spells out. -/
def parse (s : String) : Except Fault Url :=
  match splitScheme (cleaned s) with
  | some (scheme, rest) => afterScheme scheme rest
  | none => .error .relative

/-- The names of the segments, if the path has a structure. -/
def segments (url : Url) : List (List Char) :=
  match url.path with
  | .segments names => names
  | .opaquePath _ => []

/-- An address without a scheme of its own, as it is meant at a place on a server. -/
def resolve (base : Url) (cs : List Char) : Except Fault Url :=
  let kind := base.kind
  let behind := cs.dropWhile fun c => !endsPath c
  let before := cs.takeWhile fun c => !endsPath c
  let (query, fragment) := tailOf kind behind
  match cs with
  | c :: d :: rest =>
    if isSlash kind c && isSlash kind d then
      withAuthority base.scheme (rest.dropWhile (isSlash kind))
    else onServer base kind cs before query fragment
  | _ => onServer base kind cs before query fragment
where
  /-- An address on the same server. -/
  onServer (base : Url) (kind : Kind) (cs before : List Char)
      (query fragment : Option (List Char)) : Except Fault Url :=
    match cs with
    | [] => .ok { base with fragment := none }
    | '#' :: _ => .ok { base with fragment := fragment }
    | '?' :: _ => .ok { base with query := query, fragment := fragment }
    | c :: _ =>
      let path :=
        if isSlash kind c then pathAfter kind [] before.tail
        else pathAfter kind base.segments.dropLast before
      .ok { base with path := path, query := query, fragment := fragment }

/-- The address that a text means at the place of another address of a server. -/
def join (base : Url) (s : String) : Except Fault Url :=
  let cs := cleaned s
  match splitScheme cs with
  | some (scheme, rest) =>
    let slashes := (rest.takeWhile (isSlash .server)).length
    if scheme = base.scheme && base.kind == .server && slashes < 2 then resolve base rest
    else afterScheme scheme rest
  | none => resolve base cs

end DocPipeline.Url
