import ReviewQueue.Console.Details
import ReviewQueue.Console.Prompt
import ReviewQueue.Draft.Call
import ReviewQueue.Review.PartFlag
import ReviewQueue.Review.Session

/-! The review of a batch at the terminal.

A run starts at a given submission, or at the first one of the batch that nobody has reviewed yet,
and goes where each session navigates to, until there is nowhere left to go. A verdict that is given
beforehand applies to one submission only. -/

namespace ReviewQueue

/-- What is to be reviewed, and the verdict if it is given beforehand. -/
structure ReviewRequest where
  project : String := ""
  batch : String := ""
  /-- Where to start, empty for the first submission that is left. -/
  id : String := ""
  status : String := ""
  feedback : String := ""
  parts : List String := []
  once : Bool := false
  deriving DecidableEq, Repr, Inhabited

/-- Whether the verdict is given beforehand. -/
def ReviewRequest.verdictGiven (r : ReviewRequest) : Bool :=
  r.status != "" || !r.parts.isEmpty

/-- Why a review failed. -/
inductive ReviewError where
  | load (cause : LoadError)
  /-- A list has no item where one is needed, or there is nothing to choose from. -/
  | crash
  | readOnly (id : Int)
  | hasParts (id : Int)
  | hasNoParts (id : Int)
  | flag (cause : PartFlagError)
  | part (raw : String) (cause : Session.NoPart)
  | draft (cause : DraftError)
  | incomplete (mode : Mode)
  /-- The service refused the verdict and has said why. -/
  | refused
  | write (cause : WriteError)
  | move (cause : MoveError)
  | path (cause : Route.IdError)
  deriving DecidableEq, Repr

/-- What a form needs before it can be saved. -/
def Mode.hint : Mode → String
  | .single => "a status and feedback are both required"
  | .parts => "every part needs APPROVED or REJECTED, and rejected parts need feedback"

/-- The wording of a review error. -/
def ReviewError.message : ReviewError → String
  | .load cause => cause.message
  | .crash => "missing item"
  | .readOnly id => "submission " ++ Text.ofInt id ++ " is read-only"
  | .hasParts id => "submission " ++ Text.ofInt id ++ " is reviewed part by part; use --part"
  | .hasNoParts id => "submission " ++ Text.ofInt id ++ " has no parts; use --status"
  | .flag cause => cause.message
  | .part raw cause => "--part " ++ Text.quoted raw ++ ": " ++ cause.message
  | .draft cause => "draft feedback: " ++ cause.message
  | .incomplete mode => "verdict incomplete: " ++ mode.hint
  | .refused => "review refused by server"
  | .write cause => cause.message
  | .move cause => cause.message
  | .path cause => cause.message

/-- Why a run stops. -/
inductive ReviewStop where
  /-- The queue ended, or the reviewer quit. -/
  | finished
  | failed (cause : ReviewError)
  deriving DecidableEq, Repr

/-- How a run reviews. -/
structure ReviewPlan where
  request : ReviewRequest
  preferences : Preferences
  /-- Who drafts missing feedback, if anybody. -/
  drafter : Option Drafter := none

/-- A run under way. -/
structure Reviewer (ω : Type) where
  terminal : Terminal
  desk : Desk ω
  executor : Executor := {}

/-- A step of a run, which may stop it. -/
abbrev ReviewStep (ω : Type) := ExceptT ReviewStop (StateM (Reviewer ω))

namespace Reviewer

/-- Stops a run with an error. -/
def fail (e : ReviewError) : ReviewStep ω α := throw (.failed e)

/-- Lets something be written to the terminal. -/
def tell (f : Console → Console) : ReviewStep ω Unit :=
  modify fun r => { r with terminal := r.terminal.tell f }

/-- Asks a question. Without an answer the run ends. -/
def ask (question : Terminal → Terminal × Except PromptError α) : ReviewStep ω α := do
  let r ← get
  let (terminal, answer) := question r.terminal
  set { r with terminal }
  match answer with
  | .ok a => return a
  | .error .inputEnded => throw .finished
  | .error .noOptions => fail .crash

/-! ## Where to start -/

/-- The first entry that nobody has reviewed yet. -/
def firstOpen? : List (Option Summary) → Except MissingItem (Option Int)
  | [] => .ok none
  | none :: _ => .error {}
  | some s :: rest => if s.status.isOpen then .ok (some s.id) else firstOpen? rest

/-- Loads the list of a batch and finds the first submission that is left. -/
def firstPending [Remote ω] (request : ReviewRequest) : ReviewStep ω (Option Int) := do
  match Endpoint.list request.project request.batch with
  | .error e => fail (.load (.route e))
  | .ok path =>
    let r ← get
    let (desk, view) := r.desk.get path
    set { r with desk }
    match view.error with
    | some e => fail (.load (.request (.during "load submission list" e)))
    | none =>
      match Json.decode? {} SummaryList.fill (view.data.getD "").toList with
      | none => fail (.load (.malformed "submission list"))
      | some list =>
        match firstOpen? (list.results.getD []) with
        | .ok id => return id
        | .error _ => fail .crash

/-! ## What is shown -/

/-- The position of a submission among its siblings, counted from one. -/
def position? (id : Int) (n : Nat) : List (Option Summary) → Except MissingItem (Option Nat)
  | [] => .ok none
  | none :: _ => .error {}
  | some s :: rest => if s.id = id then .ok (some n) else position? id (n + 1) rest

/-- Shows the attachments of a session, whose fetch has ended. -/
def showAttachments (s : Session) : ReviewStep ω Unit := do
  match s.attachments (← get).desk.cache with
  | .error _ => fail .crash
  | .ok (_, some e) => tell (·.warning ("Attachments unavailable: " ++ e.message))
  | .ok (buckets, none) => tell (·.showAttachments buckets)

/-- Shows where a session stands in the queue. -/
def showPosition (s : Session) : ReviewStep ω Unit := do
  match s.siblingsError with
  | some e => tell (·.warning ("Queue unavailable, navigation disabled: " ++ e.message))
  | none =>
    match position? s.submission.id 1 s.siblings with
    | .error _ => fail .crash
    | .ok none => return
    | .ok (some n) =>
      tell (·.labelled "Queue:      " (Text.ofInt n ++ " of " ++ Text.ofInt s.siblings.length))

/-- Shows a session. The fetches in the background end before its attachments are shown. -/
def present [Remote ω] (s : Session) : ReviewStep ω Unit := do
  tell (·.showSubmission s.submission)
  modify fun r => { r with desk := r.desk.settle }
  showAttachments s
  showPosition s
  if s.readOnly then
    tell fun c => c.info ("Already " ++ c.status s.submission.status.label ++ "; opened read-only.")

/-! ## Verdicts given beforehand -/

/-- Sets the verdicts on parts in order. -/
def applyParts (s : Session) : List String → Except ReviewError Session
  | [] => .ok s
  | raw :: rest =>
    match PartFlag.read raw with
    | .error e => .error (.flag e)
    | .ok f =>
      match s.setPart f.position f.status f.feedback with
      | .error e => .error (.part raw e)
      | .ok s => applyParts s rest

/-- Puts a verdict that is given beforehand into the form. -/
def applyVerdict (request : ReviewRequest) (s : Session) : Except ReviewError Session :=
  if s.readOnly then .error (.readOnly s.submission.id)
  else
    match s.mode with
    | .parts =>
      if request.status != "" then .error (.hasParts s.submission.id)
      else applyParts s request.parts
    | .single =>
      if !request.parts.isEmpty then .error (.hasNoParts s.submission.id)
      else .ok ((s.setStatus ⟨Text.upper request.status⟩).setFeedback request.feedback)

/-! ## Drafts -/

/-- Fills the feedback on parts that has nothing yet. There must be a feedback for every part. -/
def fillParts (d : Draft) : List Part → List String → Option (List String)
  | [], feedbacks => some feedbacks
  | _ :: _, [] => none
  | p :: parts, f :: feedbacks =>
    (fillParts d parts feedbacks).map
      ((if Text.isBlankText f then d.partFeedback p.index else f) :: ·)

/-- Fills the feedback that is missing in a form. -/
def fillForm (d : Draft) (s : Session) : Option Session :=
  match s.mode with
  | .single => some (if Text.isBlankText s.form.feedback then s.setFeedback d.feedback else s)
  | .parts =>
    (fillParts d s.submission.partList s.form.partsFeedback).map fun partsFeedback =>
      { s with form := { s.form with partsFeedback } }

/-- Has missing feedback drafted, if somebody drafts. -/
def draftMissing (drafter : Option Drafter) (s : Session) : Except ReviewError Session :=
  match drafter with
  | none => .ok s
  | some drafter =>
    match Draft.request drafter s.submission s.form.status s.form.partsStatus with
    | .error e => .error (.draft e)
    | .ok d =>
      match fillForm d s with
      | some s => .ok s
      | none => .error .crash

/-! ## Saving and moving on -/

/-- Shows the messages of a save. -/
def tellCalls (calls : List OutsideCall) (c : Console) : Console :=
  calls.foldl (fun c call =>
    match call with
    | .notify n => c.notify n
    | _ => c) c

/-- Where a save navigated to. -/
def destination? (calls : List OutsideCall) : Option String :=
  calls.reverse.findSome? fun
    | .visit path => some path
    | _ => none

/-- Saves a session. On success the result is where it navigated to. -/
def submit [Remote ω] (s : Session) : ReviewStep ω (Except SubmitError (Option String)) := do
  let r ← get
  let saved := s.submit r.executor r.desk
  set { r with
    terminal := r.terminal.tell (tellCalls saved.calls)
    desk := saved.desk
    executor := saved.executor }
  return saved.result.map fun _ => destination? saved.calls

/-- The id of the submission that was navigated to. Where nothing was, the queue has ended. -/
def followed (template : String) (path : Option String) : ReviewStep ω String := do
  match path with
  | none | some "" => do
    tell (·.info "End of queue.")
    throw .finished
  | some path =>
    match Route.readSubmissionId template path with
    | .ok id => return id
    | .error e => fail (.path e)

/-- What a failed save of a given verdict is reported as. -/
def submitError (mode : Mode) : SubmitError → ReviewError
  | .notReady => .incomplete mode
  | .write (.failed path cause) =>
    if cause.refusal?.isSome then .refused else .write (.failed path cause)
  | .write .inFlight => .write .inFlight

/-! ## The dialogue -/

/-- What a reviewer can do with a session. -/
inductive Action where
  | review
  | next (id : Int)
  | previous (id : Int)
  | quit
  deriving DecidableEq, Repr

/-- The word for an action. -/
def Action.label : Action → String
  | .review => "Review"
  | .next id => "Next (#" ++ Text.ofInt id ++ ")"
  | .previous id => "Previous (#" ++ Text.ofInt id ++ ")"
  | .quit => "Quit"

/-- The actions that a session offers. -/
def actions (s : Session) : List Action :=
  (if s.readOnly then [] else [.review]) ++
    s.navigator.next.toList.map .next ++
    s.navigator.previous.toList.map .previous ++ [.quit]

/-- Asks for an action. -/
def chooseAction (s : Session) : ReviewStep ω Action := do
  let options := actions s
  let n ← ask (·.select "What next?" (options.map Action.label) 0)
  return options[n]?.getD .quit

/-- Asks for a verdict. -/
def askStatus (title : String) (options : List Status) (current : Status) :
    ReviewStep ω Status := do
  let n ← ask (·.select title (options.map Status.label)
    (if options.contains current then options.idxOf current else 0))
  return options[n]?.getD current

/-- The number of a part as it is shown. -/
def partName (p : Part) : String :=
  "Part " ++ Text.ofInt (Problem.partNumber p.index)

/-- Asks for the verdict on every part. -/
def askStatuses (options : List Status) : List Part → List Status → ReviewStep ω (List Status)
  | p :: parts, st :: rest => do
    let st ← askStatus (partName p ++ " verdict") options st
    return st :: (← askStatuses options parts rest)
  | _, rest => return rest

/-- Asks for the feedback on every part. -/
def askFeedbacks : List Part → List Status → List String → ReviewStep ω (List String)
  | p :: parts, st :: statuses, f :: rest => do
    let f ← ask (·.askText (partName p ++ " feedback (" ++ st.label ++ ")") f)
    return f :: (← askFeedbacks parts statuses rest)
  | _, _, rest => return rest

/-- Asks for the verdicts of a form. -/
def askVerdicts (options : List Status) (s : Session) : ReviewStep ω Session := do
  match s.mode with
  | .single => return s.setStatus (← askStatus "Verdict" options s.form.status)
  | .parts =>
    let partsStatus ← askStatuses options s.submission.partList s.form.partsStatus
    return { s with form := { s.form with partsStatus } }

/-- Asks for the feedback of a form. -/
def askFeedback (s : Session) : ReviewStep ω Session := do
  match s.mode with
  | .single =>
    let feedback ← ask (·.askText ("Feedback (" ++ s.form.status.label ++ ")") s.form.feedback)
    return s.setFeedback feedback
  | .parts =>
    let partsFeedback ← askFeedbacks s.submission.partList s.form.partsStatus s.form.partsFeedback
    return { s with form := { s.form with partsFeedback } }

/-- Asks for verdicts first, so that a draft can fit them, and then for feedback. -/
def promptVerdict [Remote ω] (drafter : Option Drafter) (s : Session) : ReviewStep ω Session := do
  let r ← get
  let (desk, options) := s.statusOptions r.desk
  set { r with desk }
  match options with
  | .error e => fail (.load e)
  | .ok options =>
    let s ← askVerdicts (options.map StatusOption.label) s
    let s ←
      match draftMissing drafter s with
      | .ok s => pure s
      | .error .crash => fail .crash
      | .error e => do
        tell (·.warning e.message)
        pure s
    askFeedback s

/-- Lets the reviewer act on a session until the run moves on or stops. Every round answers at least
one question, so `fuel` is the number of lines that can be typed. -/
def converse [Remote ω] (plan : ReviewPlan) : Nat → Session → ReviewStep ω String
  | 0, _ => throw .finished
  | fuel + 1, s => do
    match ← chooseAction s with
    | .quit => throw .finished
    | .next _ =>
      match s.navigator.goNext with
      | .ok path => followed plan.preferences.pathTemplate (some path)
      | .error e => fail (.move e)
    | .previous _ =>
      match s.navigator.goPrevious with
      | .ok path => followed plan.preferences.pathTemplate (some path)
      | .error e => fail (.move e)
    | .review =>
      let s ← promptVerdict plan.drafter s
      match ← submit s with
      | .ok path => followed plan.preferences.pathTemplate path
      | .error .notReady =>
        tell (·.warning (s.mode.hint ++ "; nothing was saved."))
        converse plan fuel s
      | .error (.write (.failed path cause)) =>
        if cause.refusal?.isSome then converse plan fuel s
        else fail (.write (.failed path cause))
      | .error (.write .inFlight) => fail (.write .inFlight)

/-! ## The run -/

/-- The parameters of the session for a submission. -/
def params (plan : ReviewPlan) (id : String) : SessionParams :=
  { projectId := plan.request.project
    batchId := plan.request.batch
    submissionId := id
    pathTemplate := plan.preferences.pathTemplate
    validStatuses := plan.preferences.validStatuses
    readOnlyStatuses := plan.preferences.readOnlyStatuses
    successMessage := plan.preferences.successMessage }

/-- Loads a submission for review. The fetches in the background end first. -/
def mount [Remote ω] (plan : ReviewPlan) (id : String) : ReviewStep ω Session := do
  let r ← get
  let (desk, session) := Session.mount r.desk.settle (params plan id)
  set { r with desk }
  match session with
  | .ok s => return s
  | .error e => fail (.load e)

/-- Saves a verdict that is given beforehand. -/
def reviewGiven [Remote ω] (plan : ReviewPlan) (s : Session) : ReviewStep ω String := do
  match applyVerdict plan.request s >>= draftMissing plan.drafter with
  | .error e => fail e
  | .ok s =>
    match ← submit s with
    | .ok path => followed plan.preferences.pathTemplate path
    | .error e => fail (submitError s.mode e)

/-- Reviews one submission, and returns the id of the one that comes next. -/
def reviewOne [Remote ω] (plan : ReviewPlan) (id : String) : ReviewStep ω String := do
  let s ← mount plan id
  present s
  if plan.request.verdictGiven then reviewGiven plan s
  else converse plan ((← get).terminal.input.length + 1) s

/-- Reviews one submission after the other. Each takes at least one line, so `fuel` is the number of
lines that can be typed. -/
def walk [Remote ω] (plan : ReviewPlan) : Nat → String → ReviewStep ω Unit
  | 0, _ => return
  | fuel + 1, id => do
    let next ← reviewOne plan id
    if plan.request.once || plan.request.verdictGiven then return
    tell (·.line "")
    walk plan fuel next

/-- Where a run starts. With nothing left to review it ends at once. -/
def start [Remote ω] (plan : ReviewPlan) : ReviewStep ω String := do
  if plan.request.id != "" then return plan.request.id
  match ← firstPending plan.request with
  | some id => return Text.ofInt id
  | none =>
    tell (·.info ("Nothing left to review in " ++ plan.request.project ++ "/" ++
      plan.request.batch ++ "."))
    throw .finished

/-- Runs a review. -/
def run [Remote ω] (plan : ReviewPlan) (r : Reviewer ω) : Reviewer ω × Option ReviewError :=
  let steps : ReviewStep ω Unit := do
    let id ← start plan
    walk plan ((← get).terminal.input.length + 1) id
  match steps.run.run r with
  | (.error (.failed e), r) => (r, some e)
  | (_, r) => (r, none)

end Reviewer
end ReviewQueue
