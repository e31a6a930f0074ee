import ReviewQueue.Domain.Verdict
import ReviewQueue.Store.Row

/-! The store of submissions and attachments.

Every operation is one step on a `Store` value: it either fails and leaves the store as it was, or
returns the new store. Only a review may fail with a new store, because it reads the submission back
after it has written it. Ids are given in ascending order and never again after a delete; a create
that fails does not use one up. The time and the ids of attachments come from outside. Reading a
submission is two reads, of its row and of its parts. -/

namespace ReviewQueue

/-- The three tables, each in the order in which its rows were created. -/
structure Store where
  /-- The id that was given last. -/
  lastId : Int := 0
  submissions : List SubmissionRow := []
  parts : List PartRow := []
  attachments : List AttachmentRow := []
  isOpen : Bool := true
  deriving DecidableEq, Repr, Inhabited

/-- Why an operation on the store failed. -/
inductive StoreError where
  /-- The store is closed; the text tells what was tried. -/
  | closed (action : String)
  | noSubmission (id : Int)
  | noPart (id index : Int)
  | duplicatePart (index : Int)
  | duplicateAttachment
  | orphanAttachment
  /-- A row cannot be read; the text tells what was tried. -/
  | unreadable (action : String) (cause : Misread)
  deriving DecidableEq, Repr

namespace StoreError

/-- The wording of a store error. -/
def message : StoreError → String
  | .closed action => action ++ ": sql: database is closed"
  | .noSubmission id => "submission " ++ Text.ofInt id ++ ": not found"
  | .noPart id index =>
    "submission " ++ Text.ofInt id ++ " part " ++ Text.ofInt index ++ ": not found"
  | .duplicatePart index =>
    "create submission part " ++ Text.ofInt index ++ ": constraint failed: UNIQUE constraint " ++
      "failed: submission_parts.submission_id, submission_parts.idx (1555)"
  | .duplicateAttachment =>
    "create attachment: constraint failed: UNIQUE constraint failed: attachments.id (1555)"
  | .orphanAttachment =>
    "create attachment: constraint failed: FOREIGN KEY constraint failed (787)"
  | .unreadable action cause => action ++ ": " ++ cause.message

/-- Whether something that was asked for does not exist. -/
def isNotFound : StoreError → Bool
  | .noSubmission _ | .noPart _ _ => true
  | _ => false

end StoreError

/-- What a list is restricted to; an empty text restricts nothing. -/
structure ListFilter where
  projectId : String := ""
  batchId : String := ""
  status : Status := .none
  deriving DecidableEq, Repr, Inhabited

/-- Whether a list with this filter shows a row. -/
def ListFilter.admits (f : ListFilter) (r : SubmissionRow) : Bool :=
  (f.projectId == "" || r.projectId == f.projectId) &&
    (f.batchId == "" || r.batchId == f.batchId) &&
    (f.status.isNone || r.status == some f.status.label)

namespace Store

/-! ## Reading -/

/-- The row of a submission. -/
def row? (store : Store) (id : Int) : Option SubmissionRow :=
  store.submissions.find? (·.id == id)

/-- The parts of a submission, in ascending order of their indexes. -/
def partsOf (store : Store) (id : Int) : List Part :=
  Part.sort ((store.parts.filter (·.submissionId == id)).map PartRow.part)

/-- Reads a submission: its row, then its parts. -/
def get (store : Store) (id : Int) : Except StoreError Submission :=
  if !store.isOpen then .error (.closed "get submission")
  else
    match store.row? id with
    | some r => (r.submission? (store.partsOf id)).mapError (.unreadable "get submission")
    | none => .error (.noSubmission id)

/-- Rows by the text of their creation time, and by id where the texts are equal. -/
def inOrder (a b : SubmissionRow) : Bool :=
  decide (a.createdAt < b.createdAt) || (a.createdAt == b.createdAt && decide (a.id ≤ b.id))

/-- The submissions that a filter admits, in order. -/
def list (store : Store) (filter : ListFilter) : Except StoreError (List Summary) :=
  if !store.isOpen then .error (.closed "list submissions")
  else
    (((store.submissions.filter filter.admits).mergeSort inOrder).mapM
      SubmissionRow.summary?).mapError (.unreadable "scan submission")

/-! ## Creating -/

/-- A submission as it is about to be stored: with its id and times, and its parts in order. -/
def prepared (store : Store) (now : Timestamp) (s : Submission) : Submission :=
  { s with
    id := store.lastId + 1
    parts := s.parts.map Part.sort
    createdAt := if s.createdAt.isZero then now else s.createdAt
    updatedAt := now }

/-- Stores a new submission under the next id, and returns it as it was given, with its id, its
times and its parts in order. -/
def create (store : Store) (now : Timestamp) (s : Submission) :
    Except StoreError (Store × Submission) :=
  if !store.isOpen then .error (.closed "begin create submission")
  else
    match Part.repeatedIndex? [] s.partList with
    | some index => .error (.duplicatePart index)
    | none =>
      let new := store.prepared now s
      .ok ({ store with
        lastId := new.id
        submissions := store.submissions ++ [.ofSubmission new]
        parts := store.parts ++ s.partList.map (.ofPart new.id) }, new)

/-! ## Reviewing -/

/-- Whether a part row is the part of a submission with an index. -/
def isPart (id index : Int) (r : PartRow) : Bool :=
  r.submissionId == id && r.index == index

/-- Sets the verdict of a part. -/
def setPart (id : Int) (v : PartVerdict) (rows : List PartRow) : List PartRow :=
  rows.map fun r =>
    if isPart id v.index r then
      { r with status := Column.ofText v.status.label, feedback := Column.ofText v.feedback }
    else r

/-- Applies part verdicts in order; the first one that no part answers to fails all of them. -/
def setParts (id : Int) : List PartRow → List PartVerdict → Except StoreError (List PartRow)
  | rows, [] => .ok rows
  | rows, v :: rest =>
    if rows.any (isPart id v.index) then setParts id (setPart id v rows) rest
    else .error (.noPart id v.index)

/-- Changes the row of a submission. -/
def setRow (id : Int) (status : Status) (feedback : String) (timeElapsed : Int)
    (now : Timestamp) (rows : List SubmissionRow) : List SubmissionRow :=
  rows.map fun r =>
    if r.id = id then
      { r with
        status := Column.ofText status.label
        feedback := (Column.ofText feedback).or r.feedback
        timeElapsed
        updatedAt := now.column }
    else r

/-- Writes a verdict. Part verdicts decide the status of the whole and leave its feedback; a verdict
on the whole replaces the feedback only when it brings one. -/
def commit (store : Store) (now : Timestamp) (id : Int) (v : Verdict) : Except StoreError Store :=
  match setParts id store.parts v.partList with
  | .error e => .error e
  | .ok parts =>
    let changed := { store with parts }
    let status := if v.hasParts then Status.ofParts (changed.partsOf id) else v.status
    let feedback := if v.hasParts then "" else v.feedback
    if (store.row? id).isNone then .error (.noSubmission id)
    else
      .ok { changed with
        submissions := setRow id status feedback v.timeElapsed now store.submissions }

/-- Writes a verdict and reads the submission back. What was written stays when the read fails. -/
def review (store : Store) (now : Timestamp) (id : Int) (v : Verdict) :
    Store × Except StoreError Submission :=
  if !store.isOpen then (store, .error (.closed "begin review"))
  else
    match store.commit now id v with
    | .error e => (store, .error e)
    | .ok written => (written, written.get id)

/-! ## Deleting -/

/-- Removes a submission with its parts and attachments. -/
def delete (store : Store) (id : Int) : Except StoreError Store :=
  if !store.isOpen then .error (.closed "delete submission")
  else if (store.row? id).isNone then .error (.noSubmission id)
  else
    .ok { store with
      submissions := store.submissions.filter (·.id != id)
      parts := store.parts.filter (·.submissionId != id)
      attachments := store.attachments.filter (·.submissionId != id) }

/-! ## Attachments -/

/-- Stores an attachment; one that has no id gets a fresh one. -/
def attach (store : Store) (now : Timestamp) (fresh : String) (a : Attachment) :
    Except StoreError (Store × Attachment) :=
  if !store.isOpen then .error (.closed "create attachment")
  else
    let new := { a with
      id := if a.id = "" then fresh else a.id
      createdAt := if a.createdAt.isZero then now else a.createdAt }
    if store.attachments.any (·.id == new.id) then .error .duplicateAttachment
    else if (store.row? new.submissionId).isNone then .error .orphanAttachment
    else .ok ({ store with attachments := store.attachments ++ [.ofAttachment new] }, new)

/-- Attachments by the text of their creation time, and by id where the texts are equal. -/
def attachedInOrder (a b : AttachmentRow) : Bool :=
  decide (a.createdAt < b.createdAt) || (a.createdAt == b.createdAt && decide (a.id ≤ b.id))

/-- The attachments of a submission, in order. -/
def attachmentsOf (store : Store) (id : Int) : Except StoreError (List Attachment) :=
  if !store.isOpen then .error (.closed "list attachments")
  else
    (((store.attachments.filter (·.submissionId == id)).mergeSort attachedInOrder).mapM
      AttachmentRow.attachment?).mapError (.unreadable "scan attachment")

/-! ## Opening and closing -/

/-- Brings the tables up to date, which those of an open store always are. -/
def migrate (store : Store) : Except StoreError Store :=
  if store.isOpen then .ok store else .error (.closed "create migrations table")

/-- Closes the store. -/
def close (store : Store) : Store := { store with isOpen := false }

end Store
end ReviewQueue
