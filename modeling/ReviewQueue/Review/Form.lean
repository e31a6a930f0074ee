import ReviewQueue.Domain.Verdict

/-! The form in which a reviewer prepares a verdict, and the update it makes.

In single mode the form holds one verdict, in parts mode a verdict and a feedback per part, at the
position that the part has in the submission's sorted list. The update addresses parts by their
stored index and not by position. -/

namespace ReviewQueue

/-- Whether a submission is reviewed as a whole or part by part. -/
inductive Mode where
  | single
  | parts
  deriving DecidableEq, Repr

/-- The mode in which a submission is reviewed. -/
def Mode.of (s : Submission) : Mode :=
  if s.hasParts then .parts else .single

/-- The mode of a submission that may be missing. -/
def Mode.of? (s : Option Submission) : Mode :=
  s.elim .single Mode.of

/-- The word for a mode. -/
def Mode.text : Mode → String
  | .single => "single"
  | .parts => "parts"

/-- A verdict in preparation. -/
structure Form where
  status : Status := .none
  feedback : String := ""
  partsStatus : List Status := []
  partsFeedback : List String := []
  deriving DecidableEq, Repr, Inhabited

namespace Form

/-- The verdict with which the form of a part starts: an unreviewed part starts as pending. -/
def seedStatus (p : Part) : Status :=
  if p.status.isNone then .pendingReview else p.status

/-- The form that shows the saved state of a submission, whose parts are sorted. -/
def ofSubmission (s : Submission) : Form :=
  match Mode.of s with
  | .single => { status := s.status, feedback := s.feedback }
  | .parts =>
    { partsStatus := s.partList.map seedStatus, partsFeedback := s.partList.map Part.feedback }

/-- The form of a submission that may be missing. -/
def ofSubmission? (s : Option Submission) : Form :=
  s.elim {} ofSubmission

/-- The update for each part, by position in the form. -/
def partVerdicts (id : Int) : List Part → List Status → List String → List PartVerdict
  | [], _, _ => []
  | p :: parts, statuses, feedbacks =>
    ⟨id, p.index, statuses.head?.getD .none, feedbacks.head?.getD ""⟩ ::
      partVerdicts id parts statuses.tail feedbacks.tail

/-- The update that a form makes to a submission. -/
def verdict (form : Form) (mode : Mode) (s : Submission) : Verdict :=
  match mode with
  | .single => { timeElapsed := s.timeElapsed, status := form.status, feedback := form.feedback }
  | .parts =>
    { timeElapsed := s.timeElapsed
      parts := some (partVerdicts s.id s.partList form.partsStatus form.partsFeedback) }

end Form
end ReviewQueue
