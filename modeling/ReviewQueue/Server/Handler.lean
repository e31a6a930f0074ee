import ReviewQueue.Domain.Codec
import ReviewQueue.Review.Problem
import ReviewQueue.Server.Counters
import ReviewQueue.Server.Resource
import ReviewQueue.Store.Basic
import ReviewQueue.Text.Upper

/-! The service: requests answered over a store.

A request changes the store only by an accepted update. An update is accepted when the id names a
submission, the body starts with a JSON value that decodes as an update, and no problem is found
with it. -/

namespace ReviewQueue

/-- A running service: its store, its counts, and whether it reports them. -/
structure Service where
  store : Store := {}
  counters : Server.Counters := {}
  reportsCounters : Bool := true
  deriving DecidableEq, Repr, Inhabited

namespace Server

open Http

/-- A JSON response. A value that has no JSON form leaves the body empty. -/
def jsonResponse (status : Int) (text : Option (List Char)) : Response :=
  { status
    body := text.elim "" fun t => .ofList (t ++ ['\n'])
    contentType := some "application/json" }

/-- A refusal with its messages. -/
def refusal (status : Int) (info : List Notice) : Response :=
  jsonResponse status (some (Refusal.json ⟨some info⟩))

/-- A refusal with one message. -/
def failure (status : Int) (message : String) : Response :=
  refusal status [.ofError message]

/-- The answer to a failed store operation. -/
def storeFailure (e : StoreError) : Response :=
  failure (if e.isNotFound then 404 else 500) e.message

/-- Reads the id of a submission out of a path segment: a positive numeral. -/
def readId (segment : List UInt8) : Except Response Int :=
  match (Text.ofBytes? segment).bind Text.toInt? with
  | some id =>
    if 0 < id then .ok id
    else .error (failure 400 ("invalid submission id " ++ Text.quotedBytes segment))
  | none => .error (failure 400 ("invalid submission id " ++ Text.quotedBytes segment))

/-- The submissions of a batch, or of a batch with a name that no stored text can have. -/
def listBatch (store : Store) (project batch : List UInt8) (status : Status) :
    Except StoreError (List Summary) :=
  match Text.ofBytes? project, Text.ofBytes? batch with
  | some project, some batch => store.list ⟨project, batch, status⟩
  | _, _ => if store.isOpen then .ok [] else .error (.closed "list submissions")

/-- Answers a list request. -/
def answerList (store : Store) (project batch : List UInt8) (target : String) : Response :=
  let status : Status := ⟨Text.upper (Target.queryValue target "status")⟩
  if !status.isNone && !status.isKnown then
    failure 400 ("unknown status " ++ Text.quoted status.label)
  else
    match listBatch store project batch status with
    | .error e => storeFailure e
    | .ok items =>
      jsonResponse 200 (SummaryList.json? ⟨items.length, some (items.map some)⟩)

/-- Answers a request for one submission. -/
def answerGet (store : Store) (segment : List UInt8) : Response :=
  match readId segment with
  | .error r => r
  | .ok id =>
    match store.get id with
    | .error e => storeFailure e
    | .ok s => jsonResponse 200 s.json?

/-- Answers a request for the attachments of a submission. -/
def answerAttachments (store : Store) (segment : List UInt8) : Response :=
  match readId segment with
  | .error r => r
  | .ok id =>
    match store.get id with
    | .error e => storeFailure e
    | .ok _ =>
      match store.attachmentsOf id with
      | .error e => storeFailure e
      | .ok items => jsonResponse 200 (Attachment.listJson? (some (items.map some)))

/-- Answers a request for the verdicts to choose from. -/
def answerStatuses : Response :=
  jsonResponse 200 (some (StatusOptionList.json ⟨some (Status.known.map StatusOption.mk)⟩))

/-- Answers an update. -/
def answerReview (service : Service) (now : Timestamp) (segment : List UInt8) (body : String) :
    Service × Response :=
  match readId segment with
  | .error r => (service, r)
  | .ok id =>
    match Json.decodeFirst? {} Verdict.fill body.toList with
    | none => (service, failure 400 "invalid JSON body")
    | some verdict =>
      match service.store.get id with
      | .error e => (service, storeFailure e)
      | .ok s =>
        match Problem.find s verdict with
        | p :: ps =>
          ({ service with counters := service.counters.refused },
            refusal 400 ((p :: ps).map Problem.notice))
        | [] =>
          match service.store.review now id verdict with
          | (store, .error e) => ({ service with store }, storeFailure e)
          | (store, .ok s) =>
            ({ service with store, counters := service.counters.accepted s.status },
              jsonResponse 200 s.json?)

/-- Answers a request for a resource with a method it takes. -/
def answerResource (service : Service) (now : Timestamp) (request : Request) :
    Resource → Service × Response
  | .batch project batch => (service, answerList service.store project batch request.target)
  | .attachments id => (service, answerAttachments service.store id)
  | .statuses => (service, answerStatuses)
  | .submission id =>
    if request.method = "PUT" then answerReview service now id request.body
    else (service, answerGet service.store id)

/-- A response in plain text. -/
def plain (status : Int) (body : String) : Response :=
  { status, body, contentType := some "text/plain; charset=utf-8" }

/-- A text inside a page, where five characters have names. -/
def pageText (s : String) : String :=
  .ofList (s.toList.flatMap fun c =>
    match c with
    | '&' => "&amp;".toList
    | '<' => "&lt;".toList
    | '>' => "&gt;".toList
    | '"' => "&#34;".toList
    | '\'' => "&#39;".toList
    | c => [c])

/-- A redirect to a clean path, for which the method stays. -/
def redirect (request : Request) (path : List Char) : Response :=
  let location := String.ofList (Target.escape path ++ Target.queryPart request.target)
  { status := 307
    body :=
      if request.method = "GET" then
        "<a href=\"" ++ pageText location ++ "\">" ++ statusText 307 ++ "</a>.\n\n"
      else ""
    contentType :=
      if request.method = "GET" ∨ request.method = "HEAD" then some "text/html; charset=utf-8"
      else none
    location := some location }

/-- The path at which a request is routed. All but a `CONNECT` are led to the clean path. -/
def routedPath (request : Request) : List Char :=
  let path := Target.path request.target
  if request.method = "CONNECT" then path else Target.clean path

/-- Answers a request by its path and method, and counts it. -/
def answerRouted (service : Service) (now : Timestamp) (request : Request) :
    Service × Response :=
  let path := routedPath request
  let resource := Resource.ofSegments? (Target.segments path)
  let count (service : Service) (r : Response) : Service × Response :=
    let route := Resource.label resource request.method
    ({ service with counters := service.counters.request route r.status }, r)
  if path ≠ Target.path request.target then count service (redirect request path)
  else
    match resource with
    | none => count service (plain 404 "404 page not found\n")
    | some r =>
      if r.methods.contains request.method then
        let (service, response) := answerResource service now request r
        count service response
      else
        count service
          { plain 405 "Method Not Allowed\n" with allow := some (", ".intercalate r.methods) }

/-- Answers a request to the interface proper, where every response allows other origins. -/
def answerInterface (service : Service) (now : Timestamp) (request : Request) :
    Service × Response :=
  if request.method = "OPTIONS" then (service, { status := 204, crossOrigin := true })
  else
    let (service, response) := answerRouted service now request
    (service, { response with crossOrigin := true })

/-- The report of the counts. -/
def reportResponse (c : Counters) : Response :=
  { status := 200
    body := c.report
    contentType := some "text/plain; version=0.0.4; charset=utf-8; escaping=underscores" }

/-- Answers a request. -/
def answer (service : Service) (now : Timestamp) (request : Request) : Service × Response :=
  let request := { request with method := if request.method = "" then "GET" else request.method }
  let path := Target.path request.target
  if !service.reportsCounters then answerInterface service now request
  else if routedPath request ≠ path then (service, redirect request (routedPath request))
  else if Target.segments path = [Resource.segment "metrics"] then
    (service, reportResponse service.counters)
  else answerInterface service now request

end Server
end ReviewQueue
