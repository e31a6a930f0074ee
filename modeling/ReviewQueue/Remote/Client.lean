import ReviewQueue.Remote.Basic
import ReviewQueue.Remote.Url

/-! The client: requests sent to a service under a base URL.

`Client.send` is the whole exchange with a `Peer`, the far side of the wire. The answer of the
exchange is the body of an answer from 200 to 299, and an error in every other case. -/

namespace ReviewQueue

namespace Http

/-- A request as it goes out. -/
structure Outgoing where
  method : String
  url : Url
  body : Option String := none
  deriving DecidableEq, Repr

namespace Outgoing

/-- The type of the body; a request without a body states none. -/
def contentType (o : Outgoing) : Option String :=
  o.body.map fun _ => "application/json"

/-- The only type of answer that is accepted. -/
def accept : String := "application/json"

/-- The request as the service receives it. -/
def request (o : Outgoing) : Request :=
  ⟨o.method, o.url.requestTarget, o.body.getD ""⟩

end Outgoing

/-- What comes back for a request. -/
inductive Reply where
  | answered (response : Response)
  /-- An answer began, but its body could not be read. -/
  | cutOff (reason : String)
  /-- No answer came. -/
  | lost (reason : String)
  deriving DecidableEq, Repr

/-- The far side of a wire: it answers requests, and may change by that. -/
class Peer (ω : Type) where
  answer : ω → Outgoing → ω × Reply
  now : ω → Timestamp

end Http

/-- A client of the service under a base URL. -/
structure Client where
  base : String
  deriving DecidableEq, Repr

namespace Client

open Http

/-- A client for a base URL, which is kept without slashes at its end. -/
def ofBase (base : String) : Client :=
  ⟨.ofList (base.toList.reverse.dropWhile (· == '/')).reverse⟩

/-- Whether a character may stand in a method. -/
def isMethodChar (c : Char) : Bool :=
  c.isAlphanum ||
    ['!', '#', '$', '%', '&', '\'', '*', '+', '-', '.', '^', '_', '|', '~',
      Char.ofNat 0x60].contains c

/-- The method on the wire: without one a request is a `GET`. -/
def wireMethod (method : String) : String :=
  if method = "" then "GET" else method

/-- Reads the URL of a text. A defect comes with the text that has it, which lacks the fragment when
the fragment is not to blame. -/
def readUrl (text : String) : Except (String × RequestDefect) Url :=
  let main := text.toList.takeWhile (· != '#')
  match Url.read main, Url.read text.toList with
  | .error d, _ => .error (.ofList main, d)
  | .ok _, .error d => .error (text, d)
  | .ok _, .ok u => .ok u

/-- The request for a path under the base URL. -/
def outgoing (c : Client) (method path : String) (body : Option String) :
    Except RequestError Outgoing :=
  let url := c.base ++ path
  if !(wireMethod method).toList.all isMethodChar then .error (.defect url (.method method))
  else
    match readUrl url with
    | .error (text, d) => .error (.defect text d)
    | .ok u => .ok { method := wireMethod method, url := u, body }

/-- The method as the first word of a sentence. -/
def verb (method : String) : String :=
  match method.toList with
  | c :: rest => .ofList (c :: rest.map Char.toLower)
  | [] => "Get"

/-- What an answer says. A request without an answer is told of with the URL that is at fault. -/
def readReply (method path url : String) : Reply → Outcome
  | .lost reason => .error (.noAnswer method path (verb (wireMethod method)) url reason)
  | .cutOff reason => .error (.cutOff method path reason)
  | .answered r =>
    if 200 ≤ r.status ∧ r.status ≤ 299 then .ok (some r.body)
    else .error (.ofAnswer r.status r.body)

/-- Where a response leads, when it is a redirect. -/
def location? (r : Response) : Option String :=
  if [301, 302, 303, 307, 308].contains r.status then r.location.filter (· != "") else none

/-- The request that follows a redirect. Only two kinds of redirect repeat a method that changes
something, and its body. -/
def redirected (sent : Outgoing) (status : Int) (location : Url) : Outgoing :=
  let url := sent.url.resolve location
  if status = 307 ∨ status = 308 then { sent with url }
  else if sent.method = "GET" ∨ sent.method = "HEAD" then { method := sent.method, url }
  else { method := "GET", url }

/-- Why a redirect to a text that is no URL is not followed. -/
def unreadable (location text : String) (d : RequestDefect) : String :=
  "failed to parse Location header " ++ Text.quoted location ++ ": " ++ d.message text

/-- Sends a request and follows redirects, at most as many as `fuel`. With the reply comes the URL
that is named when there is none: that of the last request, or of the redirect that was one too
many, which is named by the text of its location. -/
def follow [Peer ω] : Nat → (location : String) → ω → Outgoing → ω × String × Reply
  | 0, location, w, _ => (w, location, .lost "stopped after 10 redirects")
  | fuel + 1, _, w, sent =>
    let (w, reply) := Peer.answer w sent
    match reply with
    | .answered r =>
      match location? r with
      | none => (w, sent.url.shownText, reply)
      | some location =>
        match readUrl location with
        | .error (text, d) => (w, sent.url.shownText, .lost (unreadable location text d))
        | .ok url => follow fuel location w (redirected sent r.status url)
    | _ => (w, sent.url.shownText, reply)

/-- Sends a request for a path and reads the answer. -/
def send [Peer ω] (c : Client) (w : ω) (method path : String) (body : Option String) :
    ω × Outcome :=
  match c.outgoing method path body with
  | .error e => (w, .error e)
  | .ok sent =>
    let (w, url, reply) := follow 10 "" w sent
    (w, readReply method path url reply)

end Client

/-- A client and the far side of its wire: together they are a remote service. -/
structure Wire (ω : Type) where
  client : Client
  peer : ω

instance [Http.Peer ω] : Remote (Wire ω) where
  fetch w path :=
    let (peer, outcome) := w.client.send w.peer "GET" path none
    ({ w with peer }, outcome)
  send w method path body :=
    let (peer, outcome) := w.client.send w.peer method path body
    ({ w with peer }, outcome)
  now w := Http.Peer.now w.peer

end ReviewQueue
