import DocPipeline.Url.Percent

/-! Addresses on the web and elsewhere, in their parts. -/

namespace DocPipeline

/-- The path of an address: segments between slashes, or a text without structure. -/
inductive Url.Path where
  | segments (names : List (List Char))
  | opaquePath (text : List Char)
deriving DecidableEq, Repr

/-- An address. All parts are held as they are written, with escapes. -/
structure Url where
  /-- In small letters. -/
  scheme : List Char
  username : List Char
  password : List Char
  /-- None when the address has no host at all; a file address has an empty one. -/
  host : Option (List Char)
  /-- The number behind the host, unless it is the usual one of the scheme. -/
  portNumber : Option Nat
  path : Url.Path
  query : Option (List Char)
  fragment : Option (List Char)
deriving DecidableEq, Repr

namespace Url

/-- The kinds of schemes: addresses of servers, of files, and all others. -/
inductive Kind where
  | server | file | other
deriving DecidableEq, Repr

/-- The kind of a scheme. -/
def kindOf (scheme : List Char) : Kind :=
  if ["http", "https", "ws", "wss", "ftp"].contains (String.ofList scheme) then .server
  else if String.ofList scheme == "file" then .file
  else .other

/-- The usual number of a scheme. -/
def usualNumber? (scheme : List Char) : Option Nat :=
  match String.ofList scheme with
  | "http" => some 80
  | "ws" => some 80
  | "https" => some 443
  | "wss" => some 443
  | "ftp" => some 21
  | _ => none

/-- The kind of the address. -/
def kind (url : Url) : Kind :=
  kindOf url.scheme

/-- The address is one of a web server. -/
def isWeb (url : Url) : Bool :=
  String.ofList url.scheme == "http" || String.ofList url.scheme == "https"

/-- The text is an address on the web. -/
def isWebAddress (s : String) : Bool :=
  "http://".toList.isPrefixOf s.toList || "https://".toList.isPrefixOf s.toList

/-- The path as it is written. -/
def Path.text : Path → List Char
  | segments names => names.flatMap ('/' :: ·)
  | opaquePath text => text

/-- The user information as it is written before the host. -/
def userInfo (url : Url) : List Char :=
  if url.username.isEmpty && url.password.isEmpty then []
  else
    url.username ++ (if url.password.isEmpty then [] else ':' :: url.password) ++ ['@']

/-- The host and its number. -/
def hostText (url : Url) : List Char :=
  url.host.getD []
    ++ match url.portNumber with
      | some n => ':' :: Nat.toDigits 10 n
      | none => []

/-- A part behind a mark, if it is there. -/
def marked (mark : Char) : Option (List Char) → List Char
  | some part => mark :: part
  | none => []

/-- Without a host, a path must not look as if it began with one. -/
def pathGuard (url : Url) : List Char :=
  match url.host, url.path with
  | none, .segments ([] :: _ :: _) => ['/', '.']
  | _, _ => []

/-- The address without its fragment. -/
def textWithoutFragment (url : Url) : List Char :=
  url.scheme ++ ':'
    :: (if url.host.isSome then ['/', '/'] ++ url.userInfo ++ url.hostText else [])
    ++ url.pathGuard ++ url.path.text ++ marked '?' url.query

/-- The whole address. -/
def text (url : Url) : String :=
  String.ofList (url.textWithoutFragment ++ marked '#' url.fragment)

/-- The address without user information. -/
def withoutUser (url : Url) : Url :=
  { url with username := [], password := [] }

end Url
end DocPipeline
