import ReviewQueue.Http.Message

/-! The resources of the service and the methods they take. -/

namespace ReviewQueue.Server

/-- What a path of the service names. Ids are bytes, as they come out of the path. -/
inductive Resource where
  | batch (project batch : List UInt8)
  | submission (id : List UInt8)
  | attachments (id : List UInt8)
  | statuses
  deriving DecidableEq, Repr

namespace Resource

/-- A segment that is given by its text. -/
def segment (s : String) : List UInt8 := Text.toBytes s.toList

/-- The resource that the segments of a path name. What comes last in a path is no name when it is
empty. -/
def ofSegments? (segments : List (List UInt8)) : Option Resource :=
  match segments with
  | [root, version, kind, project, group, name, last] =>
    if root = segment "api" ∧ version = segment "v1" ∧ kind = segment "projects" ∧
        group = segment "batches" ∧ last = segment "submissions" then
      some (.batch project name)
    else none
  | [root, version, kind, id, last] =>
    if root = segment "api" ∧ version = segment "v1" ∧ kind = segment "submissions" ∧
        last = segment "attachments" then
      some (.attachments id)
    else none
  | [root, version, kind, id] =>
    if root = segment "api" ∧ version = segment "v1" ∧ kind = segment "submissions" ∧
        id ≠ [] then
      some (.submission id)
    else if root = segment "api" ∧ version = segment "v1" ∧ kind = segment "submission" ∧
        id = segment "statuses" then
      some .statuses
    else none
  | _ => none

/-- The methods that a resource takes, in order. -/
def methods : Resource → List String
  | .submission _ => ["GET", "HEAD", "PUT"]
  | _ => ["GET", "HEAD"]

/-- The pattern of paths that name such a resource. -/
def pattern : Resource → String
  | .batch _ _ =>
    "/api/v1/projects/\x7bprojectId\x7d/batches/\x7bbatchId\x7d/submissions"
  | .submission _ => "/api/v1/submissions/\x7bid\x7d"
  | .attachments _ => "/api/v1/submissions/\x7bid\x7d/attachments"
  | .statuses => "/api/v1/submission/statuses"

/-- The name of the route that a resource has for a method. -/
def routeName (r : Resource) (method : String) : String :=
  (if method = "PUT" then "PUT " else "GET ") ++ r.pattern

/-- The name under which requests are counted. -/
def label (resource : Option Resource) (method : String) : String :=
  match resource with
  | some r => if r.methods.contains method then r.routeName method else "unmatched"
  | none => "unmatched"

end Resource
end ReviewQueue.Server
