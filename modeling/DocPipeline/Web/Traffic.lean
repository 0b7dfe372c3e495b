import DocPipeline.Web.Code
import DocPipeline.Web.Request

/-! Requests and what becomes of them. Whoever is asked is a function from the number of a request
to a reply, and the traffic so far is all that a client can change.
-/

namespace DocPipeline.Web

/-- How much of a body arrives. -/
inductive Arrival where
  | whole
  /-- The connection ends early. -/
  | cut
  /-- The rest does not arrive in time. -/
  | late
deriving DecidableEq, Repr

/-- An answer to a request. -/
structure Answer where
  code : Nat
  headers : List (String × String)
  body : Bytes
  arrival : Arrival
deriving DecidableEq, Repr

/-- What becomes of a request. -/
inductive Reply where
  /-- Nobody is there to take it. -/
  | refusal
  /-- It is taken, and the connection is closed. -/
  | hangUp
  /-- It is taken, and nothing comes back in time. -/
  | silence
  | answer (answer : Answer)
deriving DecidableEq, Repr

/-- Whoever is asked: the reply to each request, by how many came before it. -/
abbrev Peer := Nat → Reply

/-- The peer that nobody can reach. -/
def unreachable : Peer := fun _ => .refusal

/-- What has gone over the web. -/
structure Traffic where
  /-- How many requests were tried. -/
  tried : Nat
  /-- The requests that someone took, in their order. -/
  taken : List Request
deriving DecidableEq, Repr

/-- Nothing has been sent. -/
def Traffic.none : Traffic := ⟨0, []⟩

/-- Sends one request. -/
def exchange (peer : Peer) (request : Request) (traffic : Traffic) : Reply × Traffic :=
  match peer traffic.tried with
  | .refusal => (.refusal, { traffic with tried := traffic.tried + 1 })
  | reply => (reply, ⟨traffic.tried + 1, traffic.taken ++ [request]⟩)

/-- Why no complete answer arrived. -/
inductive Fault where
  /-- The address cannot be read. -/
  | badAddress
  /-- No request can be made for the address. -/
  | unsendable (url : Url)
  | unanswered (url : Url) (late : Bool)
  /-- There were too many redirects; the last one led to the address. -/
  | endless (url : Url)
  | incomplete (late : Bool)
deriving DecidableEq, Repr

namespace Fault

/-- The text in which a fault is reported. -/
def message : Fault → String
  | badAddress => "builder error"
  | unsendable url => "builder error for url (" ++ url.withoutUser.text ++ ")"
  | unanswered url _ => "error sending request for url (" ++ url.withoutUser.text ++ ")"
  | endless url => "error following redirect for url (" ++ url.withoutUser.text ++ ")"
  | incomplete _ => "error decoding response body"

/-- Time was what ran out. -/
def isLate : Fault → Bool
  | unanswered _ late => late
  | incomplete late => late
  | _ => false

end Fault

/-- The address to which an answer sends the client, if it does. -/
def redirectTarget? (url : Url) (answer : Answer) : Option Url :=
  if redirectCodes.contains answer.code then
    match answer.headers.find? (·.1.toLower = "location") with
    | some (_, place) => (url.join place).toOption
    | none => none
  else none

/-- The address to which an answer leads a request on. A form is sent once, so a redirect that asks
for it again leads nowhere.
-/
def Request.leadsTo? (request : Request) (answer : Answer) : Option Url :=
  if request.payload.isForm && repeatingCodes.contains answer.code then none
  else redirectTarget? request.url answer

/-- How many redirects are followed. -/
def followedRedirects : Nat := 10

/-- Sends a request and follows up to `left` redirects. -/
def follow (peer : Peer) : Nat → Request → Traffic → Except Fault Answer × Traffic
  | left, request, traffic =>
    if isSendable request.url then
      match exchange peer request traffic with
      | (.refusal, traffic) => (.error (.unanswered request.url false), traffic)
      | (.hangUp, traffic) => (.error (.unanswered request.url false), traffic)
      | (.silence, traffic) => (.error (.unanswered request.url true), traffic)
      | (.answer answer, traffic) =>
        match request.leadsTo? answer, left with
        | none, _ => (.ok answer, traffic)
        | some url, 0 => (.error (.endless url), traffic)
        | some url, left + 1 =>
          follow peer left (request.redirected answer.code url) traffic
    else (.error (.unsendable request.url), traffic)

/-- Sends a request to an address; the answer is the one after all redirects. -/
def send (peer : Peer) (method : Method) (url : Url) (payload : Payload) (traffic : Traffic)
    : Except Fault Answer × Traffic :=
  follow peer followedRedirects (.to method url payload) traffic

/-- The body of an answer, if all of it has arrived. -/
def Answer.wholeBody (answer : Answer) : Except Fault Bytes :=
  match answer.arrival with
  | .whole => .ok answer.body
  | .cut => .error (.incomplete false)
  | .late => .error (.incomplete true)

end DocPipeline.Web
