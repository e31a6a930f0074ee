import ReviewQueue.Console.Basic
import ReviewQueue.Console.Elapsed
import ReviewQueue.Review.Buckets
import ReviewQueue.Review.Problem

/-! A submission and its attachments as they are shown on the terminal. -/

namespace ReviewQueue.Console

/-- A labelled line. -/
def labelled (c : Console) (label text : String) : Console :=
  c.line ("  " ++ label ++ text)

/-- A labelled line that is left out when there is nothing to say. -/
def labelledIfAny (c : Console) (label text : String) : Console :=
  if text = "" then c else c.labelled label text

/-- Whether a part has its final verdict. -/
def isDone (p : Part) : Bool :=
  p.status == .approved || p.status == .rejected

/-- One part: its number, its verdict and its feedback. -/
def showPart (c : Console) (p : Part) : Console :=
  c.line ("    " ++ Text.ofInt (Problem.partNumber p.index) ++ ". " ++ c.status p.status.label ++
    (if p.feedback = "" then "" else "  " ++ p.feedback))

/-- The parts, if there are any. -/
def showParts (c : Console) (parts : List Part) : Console :=
  if parts.isEmpty then c
  else
    parts.foldl showPart
      (c.labelled "Parts:      " (c.progress (parts.countP isDone) parts.length))

/-- A submission in detail. -/
def showSubmission (c : Console) (s : Submission) : Console :=
  let c := c.line (c.paint .cyan ("#" ++ Text.ofInt s.id) ++ "  " ++ s.title)
  let c := c.labelled "Batch:      " (s.projectId ++ " / " ++ s.batchId)
  let c := c.labelled "Status:     " (c.status s.status.label)
  let c := c.labelledIfAny "Worker:     " (Person.fullName? s.worker)
  let c := c.labelledIfAny "Interface:  " s.interfaceType
  let c := c.labelled "Elapsed:    " (elapsed s.timeElapsed)
  let c := c.labelledIfAny "Desc:       " s.description
  let c := c.labelledIfAny "Feedback:   " s.feedback
  let c := c.labelledIfAny "Channel:    " s.channelLink
  let c := c.showParts s.partList
  c.labelled "Created:    " s.createdAt.secondText

/-- A group of attachments, if it has any. -/
def showGroup (c : Console) (label : String) (items : Option (List Attachment)) : Console :=
  match items.getD [] with
  | [] => c
  | items =>
    items.foldl (fun c a => c.line ("    - " ++ a.name ++ "  " ++ a.url))
      (c.line ("  " ++ label ++ ":"))

/-- The attachments, those of the task first. -/
def showAttachments (c : Console) (b : Buckets) : Console :=
  (c.showGroup "Task files" b.task).showGroup "Submitted files" b.submission

end ReviewQueue.Console
