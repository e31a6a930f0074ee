import ReviewQueue.Review.Buckets
import ReviewQueue.Review.Coordinator
import ReviewQueue.Review.Gate
import ReviewQueue.Review.Navigator
import ReviewQueue.Review.Siblings

/-! The review of one submission, from its loading to the saved verdict.

`Session.mount` loads the submission and its siblings; only a submission that cannot be loaded is
fatal. `Session.submit` saves the form when the gate is open, and lists the calls that it made to
the outside, in order. -/

namespace ReviewQueue

/-- Which submission is reviewed, and how. Empty texts mean the usual. -/
structure SessionParams where
  projectId : String := ""
  batchId : String := ""
  submissionId : String := ""
  pathTemplate : String := ""
  /-- Where a list that was shown before is cached. -/
  listKey : String := ""
  validStatuses : List Status := []
  readOnlyStatuses : List Status := []
  successMessage : String := ""
  deriving DecidableEq, Repr, Inhabited

/-- The reason that is given for a text that is no JSON of the kind asked for. -/
def malformedText : String := "<json error>"

/-- Why something could not be loaded. -/
inductive LoadError where
  | route (cause : RouteError)
  | request (cause : RequestError)
  | malformed (what : String)
  deriving DecidableEq, Repr

/-- The wording of a load error. -/
def LoadError.message : LoadError → String
  | .route cause => cause.message
  | .request cause => cause.message
  | .malformed what => "decode " ++ what ++ ": " ++ malformedText

/-- Why a form was not saved. -/
inductive SubmitError where
  | notReady
  | write (cause : WriteError)
  deriving DecidableEq, Repr

/-- The wording of a submit error. -/
def SubmitError.message : SubmitError → String
  | .notReady => "review is not ready to submit"
  | .write cause => cause.message

/-- A call to the outside in the course of a submit. -/
inductive OutsideCall where
  | put (path : String) (verdict : Verdict)
  | notify (notice : Notice)
  | refresh (path : String)
  | visit (path : String)
  deriving DecidableEq, Repr

/-- The review of a submission. -/
structure Session where
  params : SessionParams
  submission : Submission
  mode : Mode
  readOnly : Bool
  form : Form
  siblings : List (Option Summary)
  siblingsError : Option RequestError
  navigator : Navigator
  coordinator : Coordinator
  attachmentsPath : String
  deriving DecidableEq, Repr

namespace Session

/-- The paths that a session reads from. -/
structure Paths where
  detail : String
  list : String
  attachments : String
  deriving DecidableEq, Repr

/-- The paths for the parameters. -/
def Paths.of (p : SessionParams) : Except RouteError Paths := do
  let detail ← Endpoint.detail p.submissionId
  let list ← Endpoint.list p.projectId p.batchId
  let attachments ← Endpoint.attachments p.submissionId
  return { detail, list, attachments }

/-- Reads the submission out of what was fetched. -/
def readSubmission (id : String) (view : CacheView) : Except LoadError Submission :=
  match view.error with
  | some e => .error (.request (.during ("load submission " ++ id) e))
  | none =>
    match Json.decode? {} Submission.fill (view.data.getD "").toList with
    | some s => .ok { s with parts := s.parts.map Part.sort }
    | none => .error (.malformed ("submission " ++ id))

/-- The session for a loaded submission. -/
def start (p : SessionParams) (paths : Paths) (s : Submission) (siblings : List (Option Summary))
    (siblingsError : Option RequestError) : Session :=
  { params := p
    submission := s
    mode := Mode.of s
    readOnly := isReadOnly p.readOnlyStatuses s
    form := Form.ofSubmission s
    siblings, siblingsError
    navigator := Navigator.locate siblings p.submissionId
      (if p.pathTemplate = "" then Route.defaultTemplate else p.pathTemplate)
      [(Route.projectId, p.projectId), (Route.batchId, p.batchId)]
    coordinator := Coordinator.make paths.detail paths.list p.successMessage
    attachmentsPath := paths.attachments }

/-- Loads the submission and its siblings, and starts to load its attachments. -/
def mount [Remote ω] (d : Desk ω) (p : SessionParams) : Desk ω × Except LoadError Session :=
  match Paths.of p with
  | .error e => (d, .error (.route e))
  | .ok paths =>
    let d := d.prefetch paths.attachments
    let (d, view) := d.get paths.detail
    let (d, siblings, siblingsError) :=
      Siblings.resolve d (if p.listKey = "" then paths.list else p.listKey) paths.list
    (d, (readSubmission p.submissionId view).map fun s =>
      start p paths s siblings siblingsError)

/-! ## The form -/

def setStatus (s : Session) (status : Status) : Session :=
  { s with form := { s.form with status } }

def setFeedback (s : Session) (feedback : String) : Session :=
  { s with form := { s.form with feedback } }

/-- There is no part at a position. -/
structure NoPart where
  position : Int
  deriving DecidableEq, Repr

/-- The wording of a missing part. -/
def NoPart.message (e : NoPart) : String :=
  "part " ++ Text.ofInt e.position ++ " out of range"

/-- Sets the verdict on the part at a position. -/
def setPart (s : Session) (position : Int) (status : Status) (feedback : String) :
    Except NoPart Session :=
  if s.mode = .parts ∧ 0 ≤ position ∧ position < s.form.partsStatus.length then
    .ok { s with
      form := { s.form with
        partsStatus := s.form.partsStatus.set position.toNat status
        partsFeedback := s.form.partsFeedback.set position.toNat feedback } }
  else .error ⟨position⟩

/-- Whether the form may be saved now. -/
def canSubmit (s : Session) (e : Executor) : Bool :=
  s.form.canSubmit s.mode s.readOnly e.busy

/-! ## What else is shown -/

/-- The attachments by where they came from. There are none while a fetch of them is pending or
when nothing was fetched; the failure of the fetch stands beside them then. -/
def attachments (s : Session) (cache : Cache) :
    Except MissingItem (Buckets × Option LoadError) :=
  let view := cache.peek s.attachmentsPath
  match view.loading, view.data with
  | false, some text =>
    match Json.decode? none Attachment.fillAll text.toList with
    | none => .ok ({}, some (.malformed "attachments"))
    | some items => (Buckets.ofList (some (items.getD []))).map fun b => (b, none)
  | _, _ => .ok ({}, view.error.map .request)

/-- The verdicts that are offered. -/
def statusOptions [Remote ω] (s : Session) (d : Desk ω) :
    Desk ω × Except LoadError (List StatusOption) :=
  let (d, view) := d.get Endpoint.statuses
  match view.error with
  | some e => (d, .error (.request (.during "fetch status options" e)))
  | none =>
    match Json.decode? {} StatusOptionList.fill (view.data.getD "").toList with
    | none => (d, .error (.malformed "status options"))
    | some list =>
      (d, .ok (StatusOption.select s.mode s.params.validStatuses (list.results.getD [])))

/-! ## Saving -/

/-- A desk, and the calls to the outside that were made so far, the latest first. -/
structure Trace (ω : Type) where
  desk : Desk ω
  calls : List OutsideCall := []

/-- How a session saves: through the desk, keeping record of its calls. -/
def submitActions [Remote ω] (n : Navigator) : CoordinatorActions (Trace ω) where
  send t path verdict :=
    let (remote, outcome) :=
      Remote.send t.desk.remote "PUT" path (some (.ofList verdict.json))
    (⟨{ t.desk with remote }, .put path verdict :: t.calls⟩, outcome)
  notify t notice := { t with calls := .notify notice :: t.calls }
  refresh t path := ⟨t.desk.refresh [path], .refresh path :: t.calls⟩
  advance t :=
    match n.advance? with
    | some path => { t with calls := .visit path :: t.calls }
    | none => t

/-- What a submit leaves. -/
structure Submitted (ω : Type) where
  session : Session
  executor : Executor
  desk : Desk ω
  /-- The calls to the outside, in order. -/
  calls : List OutsideCall
  result : Except SubmitError Unit

/-- Saves the form when the gate is open. A saved submission that comes back is the one that is
shown from then on; the form stays as it is. -/
def submit [Remote ω] (s : Session) (e : Executor) (d : Desk ω) : Submitted ω :=
  if !s.canSubmit e then
    let cause := if e.busy then SubmitError.write .inFlight else .notReady
    { session := s, executor := e, desk := d, calls := [], result := .error cause }
  else
    let (e, t, result) :=
      s.coordinator.submit e (submitActions s.navigator) ⟨d, []⟩ s.submission s.mode s.form
    { session :=
        match result with
        | .ok (some saved) => { s with submission := saved }
        | _ => s
      executor := e
      desk := t.desk
      calls := t.calls.reverse
      result := result.map (fun _ => ()) |>.mapError .write }

end Session
end ReviewQueue
