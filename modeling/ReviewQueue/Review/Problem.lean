import ReviewQueue.Domain.Verdict
import ReviewQueue.Text.Blank
import ReviewQueue.Text.Quoted

/-! What can be wrong with a review update, as the service judges it. -/

namespace ReviewQueue

/-- A reason to refuse an update. Parts are named by their index counted from one. -/
inductive Problem where
  | negativeTime
  | partsExpected (submission : Int)
  | noSuchPart (number : Int)
  | unknownPartStatus (number : Int) (status : Status)
  | partFeedbackMissing (number : Int)
  | partsUnexpected (submission : Int)
  | unknownStatus
  | feedbackMissing
  deriving DecidableEq, Repr

namespace Problem

/-- The wording of a problem. -/
def message : Problem → String
  | .negativeTime => "timeElapsed must not be negative"
  | .partsExpected id => "submission " ++ Text.ofInt id ++ " is reviewed part by part"
  | .noSuchPart n => "part " ++ Text.ofInt n ++ " does not exist"
  | .unknownPartStatus n st =>
    "part " ++ Text.ofInt n ++ ": unknown status " ++ Text.quoted st.label
  | .partFeedbackMissing n => "part " ++ Text.ofInt n ++ ": feedback is required when rejecting"
  | .partsUnexpected id => "submission " ++ Text.ofInt id ++ " has no parts"
  | .unknownStatus => "status must be one of " ++ ", ".intercalate (Status.known.map Status.label)
  | .feedbackMissing => "feedback is required when rejecting"

/-- A problem as the refused caller is told of it. -/
def notice (p : Problem) : Notice := .ofError p.message

/-- The number by which people call a part; it wraps as a 64-bit word does. -/
def partNumber (index : Int) : Int := wrapWord (index + 1)

/-- The first problem with a part verdict. -/
def ofPart? (parts : List Part) (v : PartVerdict) : Option Problem :=
  if !parts.any (·.index == v.index) then some (.noSuchPart (partNumber v.index))
  else if !v.status.isKnown then some (.unknownPartStatus (partNumber v.index) v.status)
  else if v.status == .rejected && Text.isBlankText v.feedback then
    some (.partFeedbackMissing (partNumber v.index))
  else none

/-- The problems with an update of the parts. -/
def ofParts (s : Submission) (v : Verdict) : List Problem :=
  if v.hasParts then v.partList.filterMap (ofPart? s.partList) else [.partsExpected s.id]

/-- The problems with an update of the whole. -/
def ofWhole (s : Submission) (v : Verdict) : List Problem :=
  if v.hasParts then [.partsUnexpected s.id]
  else
    (if v.status.isKnown then [] else [.unknownStatus]) ++
      (if v.status == .rejected && Text.isBlankText v.feedback then [.feedbackMissing] else [])

/-- All problems with an update of a submission, in the order in which they are reported. -/
def find (s : Submission) (v : Verdict) : List Problem :=
  (if v.timeElapsed < 0 then [.negativeTime] else []) ++
    (if s.hasParts then ofParts s v else ofWhole s v)

end Problem
end ReviewQueue
