import ReviewQueue.Domain.Submission
import ReviewQueue.Route
import ReviewQueue.Text.Blank
import ReviewQueue.Text.Upper

/-! What a reviewer can configure, and what is wrong with such a configuration. -/

namespace ReviewQueue

/-- The reviewer's settings. -/
structure Preferences where
  pathTemplate : String
  validStatuses : List Status
  successMessage : String
  readOnlyStatuses : List Status
  deriving DecidableEq, Repr

namespace Preferences

/-- What is shown after a save when nothing else is configured. -/
def defaultSuccessMessage : String := "Review saved"

/-- Cuts a text at commas. -/
def splitCommas (s : List Char) : List (List Char) :=
  s.splitOn ','

/-- The verdict named by one item of a list: trimmed and in upper case, or none when it is blank. -/
def status? (item : List Char) : Option Status :=
  let label := Text.upper (.ofList (Text.trim item))
  if label = "" then none else some ⟨label⟩

/-- The verdicts of a list of texts, each of which may name several. -/
def statuses (items : List String) : List Status :=
  items.flatMap fun s => (splitCommas s.toList).filterMap status?

/-- Settings from what is configured; an empty text means the default. -/
def ofSettings (template message : String) (valid readOnly : List String) : Preferences :=
  { pathTemplate := if template = "" then Route.defaultTemplate else template
    validStatuses := statuses valid
    successMessage := if message = "" then defaultSuccessMessage else message
    readOnlyStatuses := statuses readOnly }

/-- What is wrong with a setting. -/
inductive Defect where
  | template (cause : RouteError)
  | noSubmissionId (template : String)
  | unknownStatus (key : String) (status : Status)
  deriving DecidableEq, Repr

/-- The wording of a defect. -/
def Defect.message : Defect → String
  | .template cause => cause.message
  | .noSubmissionId t =>
    "path template " ++ Text.quoted t ++ " does not carry \x7bsubmissionId\x7d"
  | .unknownStatus key status => key ++ ": unknown status " ++ Text.quoted status.label

/-- The values with which a template is tried. -/
def sample : Params :=
  [(Route.projectId, "p"), (Route.batchId, "b"), (Route.submissionId, "1")]

/-- What is wrong with a template: a path built from it must give the submission id back. -/
def templateDefect? (template : String) : Option Defect :=
  match Route.build template sample with
  | .error e => some (.template e)
  | .ok path =>
    match Route.submissionIdBytes template path with
    | .ok [0x31] => none
    | _ => some (.noSubmissionId template)

/-- The unknown verdicts of a setting. -/
def unknownStatuses (key : String) (statuses : List Status) : List Defect :=
  (statuses.filter fun st => !st.isKnown).map (.unknownStatus key)

/-- Everything that is wrong with the settings. -/
def defects (p : Preferences) : List Defect :=
  (templateDefect? p.pathTemplate).toList ++
    unknownStatuses "review.valid_statuses" p.validStatuses ++
    unknownStatuses "review.read_only_statuses" p.readOnlyStatuses

end Preferences

/-- Whether a submission may only be looked at: its verdict is one of those listed. -/
def isReadOnly (statuses : List Status) (s : Submission) : Bool :=
  statuses.contains s.status

end ReviewQueue
