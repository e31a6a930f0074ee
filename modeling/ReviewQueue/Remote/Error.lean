import ReviewQueue.Domain.Codec
import ReviewQueue.Http.StatusText

/-! Why a request to the service failed, and what the user is told about it.

A refusal is an answer of the service and carries its messages; every other failure is told by its
own text. An error may be wrapped in the action during which it arose. -/

namespace ReviewQueue

/-- Why a request could not even be made. -/
inductive RequestDefect where
  | method (method : String)
  | control
  | noScheme
  | colonInSegment
  | escape (bytes : List UInt8)
  | host (character : String)
  | port (text : String)
  | openBracket
  | user
  deriving DecidableEq, Repr

/-- The wording of a defect of the request for a URL. -/
def RequestDefect.message (url : String) (d : RequestDefect) : String :=
  let parse (reason : String) := "parse " ++ Text.quoted url ++ ": " ++ reason
  match d with
  | .method m => "net/http: invalid method " ++ Text.quoted m
  | .control => parse "net/url: invalid control character in URL"
  | .noScheme => parse "missing protocol scheme"
  | .colonInSegment => parse "first path segment in URL cannot contain colon"
  | .escape bytes => parse ("invalid URL escape " ++ Text.quotedBytes bytes)
  | .host c => parse ("invalid character " ++ Text.quoted c ++ " in host name")
  | .port text => parse ("invalid port " ++ Text.quoted text ++ " after host")
  | .openBracket => parse "missing ']' in host"
  | .user => parse "net/url: invalid userinfo"

/-- Why a request failed. -/
inductive RequestError where
  /-- The request cannot be made. -/
  | defect (url : String) (cause : RequestDefect)
  /-- No answer came. -/
  | noAnswer (method path verb url reason : String)
  /-- The answer broke off. -/
  | cutOff (method path reason : String)
  /-- The service refused the request. -/
  | refused (status : Int) (info : List Notice)
  /-- Any other failure, by its text. -/
  | other (text : String)
  /-- A failure in the course of an action. -/
  | during (action : String) (cause : RequestError)
  deriving DecidableEq, Repr

namespace RequestError

/-- The wording of a request error. -/
def message : RequestError → String
  | .defect url cause => "create request: " ++ cause.message url
  | .noAnswer method path verb url reason =>
    method ++ " " ++ path ++ ": " ++ verb ++ " " ++ Text.quoted url ++ ": " ++ reason
  | .cutOff method path reason => "read " ++ method ++ " " ++ path ++ ": " ++ reason
  | .refused status info =>
    "api status " ++ Text.ofInt status ++ ": " ++ "; ".intercalate (info.map Notice.message)
  | .other text => text
  | .during action cause => action ++ ": " ++ cause.message

/-- The refusal behind an error: its status and its messages. -/
def refusal? : RequestError → Option (Int × List Notice)
  | .refused status info => some (status, info)
  | .during _ cause => cause.refusal?
  | _ => none

/-- What the user is told: the messages of a refusal that has some, and otherwise the error
itself. -/
def info (e : RequestError) : List Notice :=
  match e.refusal? with
  | some (_, item :: items) => item :: items
  | _ => [.ofError e.message]

/-- The refusal that an answer outside 200 to 299 makes: with the messages of its body, or with the
text of its status when the body brings none. -/
def ofAnswer (status : Int) (body : String) : RequestError :=
  match Json.decode? {} Refusal.fill body.toList with
  | some ⟨some (item :: items)⟩ => .refused status (item :: items)
  | _ => .refused status [.ofError (Http.statusText status)]

end RequestError

/-- What came of a request: the data, which may be missing, or the failure. -/
abbrev Outcome := Except RequestError (Option String)

end ReviewQueue
