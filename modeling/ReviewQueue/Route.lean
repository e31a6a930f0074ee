import ReviewQueue.PathTemplate.Expand
import ReviewQueue.PathTemplate.Matcher
import ReviewQueue.Json.Reader
import ReviewQueue.Text.Quoted

/-! Paths built from templates and read back.

`Route.build` substitutes values into a template, `Route.match?` reads them out of a path, and
`Route.submissionId` reads the one that names a submission. -/

namespace ReviewQueue

/-- The values of a path's variables. -/
abbrev Params := PathTemplate.Values

/-- Why a path could not be built. -/
inductive RouteError where
  /-- The template, quoted, cannot be read. -/
  | template (quoted : String) (cause : PathTemplate.ReadError)
  /-- A value is not well encoded at a position. -/
  | expansion (quoted : String) (position : Nat)
  deriving DecidableEq, Repr

/-- The wording of a route error. -/
def RouteError.message : RouteError → String
  | .template quoted cause => "parse path template " ++ quoted ++ ": " ++ cause.message
  | .expansion quoted position =>
    "expand path template " ++ quoted ++ ": uritemplate:" ++ Text.ofNat position ++
      ":invalid encoding"

namespace Route

/-- The names of the variables of review paths. -/
def projectId : String := "projectId"
def batchId : String := "batchId"
def submissionId : String := "submissionId"

/-- The page of a submission when no other template is configured. -/
def defaultTemplate : String :=
  "/projects/\x7bprojectId\x7d/batches/\x7bbatchId\x7d/submissions/\x7bsubmissionId\x7d"

/-- Expands what was read from a template. -/
def expandRead (quoted : String) (read : Except PathTemplate.ReadError PathTemplate)
    (params : Params) : Except RouteError String :=
  match read with
  | .error e => .error (.template quoted e)
  | .ok t =>
    match t.expand params with
    | .error position => .error (.expansion quoted position)
    | .ok path => .ok (.ofList path)

/-- Substitutes values into a template. -/
def build (template : String) (params : Params) : Except RouteError String :=
  expandRead (Text.quoted template) (PathTemplate.ofText template) params

/-- Substitutes values into a template that is given as bytes. -/
def buildBytes (template : List UInt8) (params : Params) : Except RouteError String :=
  expandRead (Text.quotedBytes template) (PathTemplate.read (Text.runes template)) params

/-- Replaces percent escapes by the bytes they stand for. -/
def unescape : List Char → List UInt8
  | '%' :: a :: b :: rest =>
    match Json.hexValue? a, Json.hexValue? b with
    | some x, some y => UInt8.ofNat (x * 16 + y) :: unescape rest
    | _, _ => String.utf8EncodeChar '%' ++ unescape (a :: b :: rest)
  | c :: rest => String.utf8EncodeChar c ++ unescape rest
  | [] => []

/-- Reads the values of a template's variables out of a path. A variable that no piece of the path
belongs to has no value. -/
def match? (template path : String) : Option (List (String × List UInt8)) :=
  match PathTemplate.ofText template with
  | .error _ => none
  | .ok t =>
    (t.captures? path.toList).map fun captures =>
      t.names.eraseDups.filterMap fun name =>
        match captures.find? (·.1 = name) with
        | some (_, positions) =>
          (PathTemplate.firstPiece? path.toList positions).map fun piece =>
            (String.ofList name, unescape piece)
        | none => none

/-- Why no submission id could be read: the path and the template. -/
structure IdError where
  path : String
  template : String
  deriving DecidableEq, Repr

/-- The wording of an id error. -/
def IdError.message (e : IdError) : String :=
  "path " ++ Text.quoted e.path ++ " does not match " ++ Text.quoted e.template

/-- Reads the id of a submission out of a path, as bytes. -/
def submissionIdBytes (template path : String) : Except IdError (List UInt8) :=
  match (match? template path).bind (·.find? (·.1 = submissionId)) with
  | some (_, b :: bytes) => .ok (b :: bytes)
  | _ => .error ⟨path, template⟩

/-- Reads the id of a submission out of a path. -/
def readSubmissionId (template path : String) : Except IdError String :=
  (submissionIdBytes template path).map Text.lossy

end Route

/-! ## Paths of the service -/

namespace Endpoint

def listTemplate : String :=
  "/api/v1/projects/\x7bprojectId\x7d/batches/\x7bbatchId\x7d/submissions"

def detailTemplate : String := "/api/v1/submissions/\x7bsubmissionId\x7d"

def attachmentsTemplate : String := "/api/v1/submissions/\x7bsubmissionId\x7d/attachments"

/-- The submissions of a batch. The path is also the key under which the list is cached. -/
def list (project batch : String) : Except RouteError String :=
  Route.build listTemplate [(Route.projectId, project), (Route.batchId, batch)]

/-- One submission. -/
def detail (id : String) : Except RouteError String :=
  Route.build detailTemplate [(Route.submissionId, id)]

/-- The attachments of a submission. -/
def attachments (id : String) : Except RouteError String :=
  Route.build attachmentsTemplate [(Route.submissionId, id)]

/-- The verdicts to choose from. -/
def statuses : String := "/api/v1/submission/statuses"

end Endpoint
end ReviewQueue
