import ReviewQueue.Domain.Codec
import ReviewQueue.Number.Binary64
import ReviewQueue.Review.Problem
import ReviewQueue.Store.Basic
import ReviewQueue.Text.Upper

/-! The tools by which an assistant lists, reads and reviews submissions.

A tool takes named arguments of any JSON kind. An update goes through the same judgement as one
that comes to the service over HTTP. -/

namespace ReviewQueue

/-- What a tool says, and whether it failed. -/
structure ToolResult where
  isError : Bool
  text : String
  deriving DecidableEq, Repr

namespace ToolResult

def failed (text : String) : ToolResult := ⟨true, text⟩

/-- A result in JSON; a value that has no JSON form fails. -/
def ofJson (text : Option (List Char)) : ToolResult :=
  match text with
  | some t => ⟨false, .ofList t⟩
  | none => failed "failed to marshal result: <json error>"

def missing (name : String) : ToolResult := failed ("missing required parameter: " ++ name)

/-- The result when a submission could not be read. -/
def unread (id : Int) (e : StoreError) : ToolResult :=
  if e.isNotFound then failed ("submission not found: " ++ Text.ofInt id)
  else failed ("failed to load submission " ++ Text.ofInt id ++ ": " ++ e.message)

end ToolResult

namespace Tools

/-- The arguments of a call. -/
abbrev Args := List (String × Json)

/-- The argument of a name; of several the last one counts. -/
def arg? (args : Args) (name : String) : Option Json :=
  (args.reverse.find? (·.1 == name)).map (·.2)

/-- A text argument. -/
def text? (args : Args) (name : String) : Option String :=
  match arg? args name with
  | some (.string s) => some s
  | _ => none

/-- An integer argument: a number, cut toward zero, or a text that is a numeral. -/
def int? (args : Args) (name : String) : Option Int :=
  match arg? args name with
  | some (.number spelling) => (Binary64.ofSpelling? spelling).map Binary64.truncate
  | some (.string s) => Text.toInt? s
  | _ => none

/-- Lists the submissions of a batch. -/
def list (store : Store) (args : Args) : ToolResult :=
  match text? args "project" with
  | none => .missing "project"
  | some project =>
    match text? args "batch" with
    | none => .missing "batch"
    | some batch =>
      let label := (text? args "status").getD ""
      let status : Status := ⟨Text.upper label⟩
      if label ≠ "" ∧ !status.isKnown then .failed ("invalid status: " ++ label)
      else
        match store.list ⟨project, batch, status⟩ with
        | .error e => .failed ("failed to list submissions: " ++ e.message)
        | .ok items => .ofJson (SummaryList.json? ⟨items.length, some (items.map some)⟩)

/-- Reads one submission. -/
def get (store : Store) (args : Args) : ToolResult :=
  match int? args "id" with
  | none => .missing "id"
  | some id =>
    match store.get id with
    | .error e => .unread id e
    | .ok s => .ofJson s.json?

/-- A part verdict for a submission, its status in upper case. -/
def addressed (id : Int) (p : PartVerdict) : PartVerdict :=
  { p with submission := id, status := ⟨Text.upper p.status.label⟩ }

/-- The update that the arguments describe. Parts take the place of status and feedback. -/
def verdict? (id : Int) (args : Args) : Option Verdict :=
  let timeElapsed := (int? args "time_elapsed").getD 0
  match (text? args "parts").getD "" with
  | "" =>
    some
      { timeElapsed
        status := ⟨Text.upper ((text? args "status").getD "")⟩
        feedback := (text? args "feedback").getD "" }
  | parts =>
    (Json.decode? none (Json.fillList {} PartVerdict.fill) parts.toList).map fun parts =>
      { timeElapsed, parts := parts.map (·.map (addressed id)) }

/-- Records a verdict. -/
def review (store : Store) (now : Timestamp) (args : Args) : Store × ToolResult :=
  match int? args "id" with
  | none => (store, .missing "id")
  | some id =>
    match verdict? id args with
    | none => (store, .failed "invalid parts JSON: <json error>")
    | some v =>
      match store.get id with
      | .error e => (store, .unread id e)
      | .ok s =>
        match Problem.find s v with
        | p :: ps =>
          (store, .failed ("review refused:\n- " ++
            "\n- ".intercalate ((p :: ps).map Problem.message)))
        | [] =>
          match store.review now id v with
          | (store, .error e) => (store, .failed ("failed to save review: " ++ e.message))
          | (store, .ok s) => (store, .ofJson s.json?)

/-! ## The interface of the tools -/

/-- A parameter of a tool. -/
structure Parameter where
  name : String
  kind : String
  description : String
  required : Bool := false

/-- A tool as it is announced. -/
structure Description where
  name : String
  description : String
  parameters : List Parameter

/-- All tools, in order of their names. -/
def descriptions : List Description :=
  [{ name := "rq_get_submission"
     description :=
       "Get one submission with its parts (sorted by index), current verdict and feedback."
     parameters := [⟨"id", "number", "Submission ID", true⟩] },
   { name := "rq_list_submissions"
     description :=
       "List the submissions of a batch in queue order. Returns \x7bcount, results\x7d with id, " ++
         "title, status, worker and createdAt."
     parameters :=
       [⟨"project", "string", "Project ID", true⟩,
        ⟨"batch", "string", "Batch ID", true⟩,
        ⟨"status", "string", "Filter by status: APPROVED, REJECTED or PENDING_REVIEW", false⟩] },
   { name := "rq_review_submission"
     description :=
       "Record a verdict on a submission. Use status and feedback for whole submissions, or " ++
         "parts (a JSON array of \x7bindex, reviewStatus, feedback\x7d) for submissions " ++
         "reviewed part by part. REJECTED always needs feedback."
     parameters :=
       [⟨"id", "number", "Submission ID", true⟩,
        ⟨"status", "string", "APPROVED, REJECTED or PENDING_REVIEW", false⟩,
        ⟨"feedback", "string", "Feedback shown to the worker", false⟩,
        ⟨"parts", "string", "Per-part verdicts as JSON, e.g. [\x7b\"index\":0," ++
          "\"reviewStatus\":\"APPROVED\",\"feedback\":\"\"\x7d]", false⟩,
        ⟨"time_elapsed", "number", "Seconds spent reviewing", false⟩] }]

/-- The answer to a message of an assistant. -/
inductive Reply where
  | result (r : ToolResult)
  /-- The name and the version of the server. -/
  | greeting (server version : String)
  | tools (descriptions : List Description)
  | empty
  | refused (code : Int)

/-- Calls a tool. -/
def call (store : Store) (now : Timestamp) (tool : String) (args : Args) : Store × Reply :=
  match tool with
  | "rq_list_submissions" => (store, .result (list store args))
  | "rq_get_submission" => (store, .result (get store args))
  | "rq_review_submission" =>
    let (store, r) := review store now args
    (store, .result r)
  | _ => (store, .refused (-32602))

/-- Answers a message that calls no tool. -/
def answerMethod (version method : String) : Reply :=
  match method with
  | "initialize" => .greeting "rq" (if version = "" then "dev" else version)
  | "tools/list" => .tools descriptions
  | "ping" => .empty
  | _ => .refused (-32601)

end Tools
end ReviewQueue
