import ReviewQueue.Domain.Status
import ReviewQueue.Timestamp

/-! Submitted work and its parts.

A submission without parts carries its own verdict. One with parts has a verdict per part, and its
own follows from them by `Status.ofParts`. Lists that may be missing on the wire are optional
here. -/

namespace ReviewQueue

/-- A worker or the owner of a project. -/
structure Person where
  id : Int := 0
  firstName : String := ""
  lastName : String := ""
  profilePicture : String := ""
  deriving DecidableEq, Repr, Inhabited

/-- First and last name, or the one that is given. -/
def Person.fullName (p : Person) : String :=
  if p.firstName = "" then p.lastName
  else if p.lastName = "" then p.firstName
  else p.firstName ++ " " ++ p.lastName

/-- The full name of a person that may be missing. -/
def Person.fullName? (p : Option Person) : String :=
  p.elim "" Person.fullName

/-- A part of a submission that is reviewed on its own. -/
structure Part where
  index : Int := 0
  status : Status := .none
  feedback : String := ""
  deriving DecidableEq, Repr, Inhabited

/-- The verdict on a whole that follows from the verdicts on its parts: one rejection rejects it,
unanimous approval approves it, and all else leaves it pending. -/
def Status.ofParts (parts : List Part) : Status :=
  if parts.isEmpty then .pendingReview
  else if parts.any (·.status == .rejected) then .rejected
  else if parts.all (·.status == .approved) then .approved
  else .pendingReview

/-- Parts in ascending order of their indexes; parts of one index keep their order. -/
def Part.sort (parts : List Part) : List Part :=
  parts.mergeSort fun a b => decide (a.index ≤ b.index)

/-- The first index that a part shares with an earlier one. -/
def Part.repeatedIndex? (earlier : List Int) : List Part → Option Int
  | [] => none
  | p :: rest =>
    if earlier.contains p.index then some p.index else repeatedIndex? (p.index :: earlier) rest

/-- The four fields of a submission that hold a JSON text of their own. -/
inductive RawField where
  | instructions
  | labelingConfig
  | taskData
  | data
  deriving DecidableEq, Repr

/-- The field of a name. -/
def RawField.ofName? (name : String) : Option RawField :=
  [("instructions", .instructions), ("labelingConfig", .labelingConfig), ("taskData", .taskData),
    ("data", .data)].lookup name

/-- A unit of submitted work. The raw fields hold JSON texts; an empty one is absent. -/
structure Submission where
  id : Int := 0
  projectId : String := ""
  batchId : String := ""
  title : String := ""
  description : String := ""
  status : Status := .none
  feedback : String := ""
  parts : Option (List Part) := none
  timeElapsed : Int := 0
  worker : Option Person := none
  projectOwner : Option Person := none
  interfaceType : String := ""
  channelLink : String := ""
  instructions : String := ""
  labelingConfig : String := ""
  taskData : String := ""
  data : String := ""
  createdAt : Timestamp := .zero
  updatedAt : Timestamp := .zero
  deriving DecidableEq, Repr, Inhabited

namespace Submission

/-- The parts, none when the list is missing. -/
def partList (s : Submission) : List Part := s.parts.getD []

/-- Whether the submission is reviewed part by part. -/
def hasParts (s : Submission) : Bool := !s.partList.isEmpty

/-- The submission with the text of a raw field replaced. -/
def setRaw (s : Submission) (text : String) : RawField → Submission
  | .instructions => { s with instructions := text }
  | .labelingConfig => { s with labelingConfig := text }
  | .taskData => { s with taskData := text }
  | .data => { s with data := text }

/-- The submission with the texts of raw fields replaced by name; other names are skipped. -/
def setRaws (s : Submission) (texts : List (String × String)) : Submission :=
  texts.foldl (fun s (name, text) => ((RawField.ofName? name).map (s.setRaw text)).getD s) s

end Submission

/-- A submission as a list shows it. -/
structure Summary where
  id : Int := 0
  title : String := ""
  status : Status := .none
  worker : Option Person := none
  createdAt : Timestamp := .zero
  deriving DecidableEq, Repr, Inhabited

/-- The answer to a list request. Items may be missing. -/
structure SummaryList where
  count : Int := 0
  results : Option (List (Option Summary)) := none
  deriving DecidableEq, Repr, Inhabited

/-- A file linked to a submission. -/
structure Attachment where
  id : String := ""
  submissionId : Int := 0
  source : String := ""
  name : String := ""
  url : String := ""
  createdAt : Timestamp := .zero
  deriving DecidableEq, Repr, Inhabited

end ReviewQueue
