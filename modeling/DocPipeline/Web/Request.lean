import DocPipeline.Text.Base64
import DocPipeline.Url.Parse

/-! What is sent over the web. User information of an address is not part of the address that is
asked for; it goes along as an authorization.
-/

namespace DocPipeline.Web

/-- What is asked of an address. -/
inductive Method where
  | get | post
deriving DecidableEq, Repr

/-- What is sent along. -/
inductive Payload where
  | nothing
  | json (text : String)
  /-- A form of one part, which has a head of its own. -/
  | form (head content : Bytes)
deriving DecidableEq, Repr

/-- The payload is a form. -/
def Payload.isForm : Payload → Bool
  | .form .. => true
  | _ => false

/-- A request as it leaves the program. -/
structure Request where
  method : Method
  /-- Without user information. -/
  url : Url
  payload : Payload
  authorization : Option String
deriving DecidableEq, Repr

/-- A text with its escapes resolved, if that is a text. -/
def plain? (cs : List Char) : Option Bytes :=
  let bytes := Url.decode cs
  match Text.Utf8.decode bytes with
  | .ok _ => some bytes
  | .error _ => none

/-- The authorization that the user information of an address gives. -/
def authorizationOf (url : Url) : Option String := do
  if url.username.isEmpty && url.password.isEmpty then none
  let user ← plain? url.username
  let password ← plain? url.password
  return "Basic " ++ String.ofList (Text.Base64.encode (user ++ [0x3A] ++ password))

/-- The request for an address. -/
def Request.to (method : Method) (url : Url) (payload : Payload) : Request :=
  ⟨method, url.withoutUser, payload, authorizationOf url⟩

/-- Marks that a host may have in an address, but not in a request. -/
def unsendableMarks : List Char :=
  ['"', '\x60', '\x7b', '\x7d']

/-- The number of bytes that the address of a request may have. -/
def longestAddress : Nat := 65534

/-- The address is one of a web server, and a request can name it. -/
def isSendable (url : Url) : Bool :=
  url.isWeb && !(url.host.getD []).any unsendableMarks.contains
    && url.text.utf8ByteSize ≤ longestAddress

/-- The address leads to the same server as another one. -/
def sameServer (a b : Url) : Bool :=
  let number (url : Url) : Option Nat :=
    match url.portNumber with
    | some n => some n
    | none => Url.usualNumber? url.scheme
  a.host = b.host && number a = number b

/-- The codes with which a server sends the client to another address. -/
def redirectCodes : List Nat :=
  [301, 302, 303, 307, 308]

/-- The codes of them that leave the request as it is. -/
def repeatingCodes : List Nat :=
  [307, 308]

/-- The request with which a client follows a redirect. An authorization is for one server, and
only some redirects ask for the same request again.
-/
def Request.redirected (request : Request) (code : Nat) (url : Url) : Request where
  method := if repeatingCodes.contains code then request.method else .get
  url := url.withoutUser
  payload := if repeatingCodes.contains code then request.payload else .nothing
  authorization := if sameServer request.url url then request.authorization else none

end DocPipeline.Web
