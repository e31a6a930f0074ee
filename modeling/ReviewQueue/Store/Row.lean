import ReviewQueue.Domain.Codec

/-! The rows in which the store keeps its records.

An empty verdict, feedback or raw text is kept as no value at all, a person as its JSON text, and a
time as a text in which later UTC times are greater. Reading a row undoes all of this, and fails at
a time that cannot be read. -/

namespace ReviewQueue

namespace Timestamp

/-- The zone of a stored time: hours and minutes, and the name of the zone. -/
def columnZone (offset : Int) : List Char :=
  let digits :=
    (if offset < 0 then '-' else '+') :: Text.padded 2 (offset.natAbs / 60) ++
      Text.padded 2 (offset.natAbs % 60)
  digits ++ ' ' :: (if offset = 0 then ['U', 'T', 'C'] else digits)

/-- A time as it is stored. -/
def column (t : Timestamp) : String :=
  .ofList (dateText t ++ ' ' :: clockText t ++ ':' :: Text.padded 2 t.second ++
    fractionText t.nanos ++ ' ' :: columnZone t.offset)

/-- The sign of a zone. -/
def readSign (s : List Char) : Option (Int × List Char) :=
  match s with
  | '+' :: rest => some (1, rest)
  | '-' :: rest => some (-1, rest)
  | _ => none

/-- Whether a text is a zone name that can be read: `UTC`, or a sign and a number of at most 23. -/
def isZoneName (s : List Char) : Bool :=
  s == ['U', 'T', 'C'] ||
    match readSign s with
    | some (_, digits) =>
      !digits.isEmpty && digits.all Text.isDigit && decide (Text.digitsValue digits ≤ 23)
    | none => false

/-- Reads a stored zone, of which the name decides whether it can be read: hours and minutes as a
name are too great a number, unless there are no hours and at most 23 minutes. -/
def readColumnZone (s : List Char) : Option Int := do
  let (sign, s) ← readSign s
  let (hours, s) ← readFixed 2 s
  let (minutes, s) ← readFixed 2 s
  let name ← expect ' ' s
  if hours > 24 ∨ minutes > 60 ∨ !isZoneName name then none
  else if name = ['U', 'T', 'C'] then some 0
  else some (sign * ((hours * 60 + minutes : Nat) : Int))

/-- Reads a stored time. Not every time that was stored can be read: one of a year with five digits
cannot, and neither can one of a zone of more than 23 minutes. -/
def ofColumn? (text : String) : Option Timestamp := do
  let (year, s) ← readFixed 4 text.toList
  let s ← expect '-' s
  let (month, s) ← readFixed 2 s
  let s ← expect '-' s
  let (day, s) ← readFixed 2 s
  let s ← expect ' ' s
  let (hour, s) ← readFixed 2 s
  let s ← expect ':' s
  let (minute, s) ← readFixed 2 s
  let s ← expect ':' s
  let (second, s) ← readFixed 2 s
  let (nanos, s) := readFraction s
  let s ← expect ' ' s
  let offset ← readColumnZone s
  ofDate? ⟨year, month, day, hour, minute, second, nanos, offset⟩

end Timestamp

/-- A column of a result that holds no time that can be read: its place and its name. -/
structure Misread where
  place : Nat
  column : String
  deriving DecidableEq, Repr

namespace Misread

/-- The wording of a column that cannot be read. -/
def message (m : Misread) : String :=
  "sql: Scan error on column index " ++ Text.ofInt m.place ++ ", name " ++ Text.quoted m.column ++
    ": unsupported Scan, storing driver.Value type string into type *time.Time"

end Misread

/-- Reads the time of a column. -/
def readTime (place : Nat) (column text : String) : Except Misread Timestamp :=
  match Timestamp.ofColumn? text with
  | some t => .ok t
  | none => .error ⟨place, column⟩

namespace Column

/-- A text that is kept as no value when it is empty. -/
def ofText (s : String) : Option String :=
  if s = "" then none else some s

/-- The text of a column, empty when it has no value. -/
def text (c : Option String) : String := c.getD ""

/-- A person as JSON text. -/
def ofPerson (p : Option Person) : Option String :=
  p.map fun p => .ofList p.json

/-- The person of a column; a text that does not decode is nobody. -/
def person (c : Option String) : Option Person :=
  c.bind fun s => if s = "" then none else Json.decode? {} Person.fill s.toList

end Column

/-- A stored submission, without its parts. -/
structure SubmissionRow where
  id : Int
  projectId : String
  batchId : String
  title : String
  description : String
  status : Option String
  feedback : Option String
  timeElapsed : Int
  worker : Option String
  projectOwner : Option String
  interfaceType : String
  channelLink : String
  instructions : Option String
  labelingConfig : Option String
  taskData : Option String
  data : Option String
  createdAt : String
  updatedAt : String
  deriving DecidableEq, Repr

/-- A stored part. -/
structure PartRow where
  submissionId : Int
  index : Int
  status : Option String
  feedback : Option String
  deriving DecidableEq, Repr

/-- A stored attachment. -/
structure AttachmentRow where
  id : String
  submissionId : Int
  source : String
  name : String
  url : String
  createdAt : String
  deriving DecidableEq, Repr

namespace SubmissionRow

/-- The row of a submission. -/
def ofSubmission (s : Submission) : SubmissionRow :=
  { id := s.id
    projectId := s.projectId
    batchId := s.batchId
    title := s.title
    description := s.description
    status := Column.ofText s.status.label
    feedback := Column.ofText s.feedback
    timeElapsed := s.timeElapsed
    worker := Column.ofPerson s.worker
    projectOwner := Column.ofPerson s.projectOwner
    interfaceType := s.interfaceType
    channelLink := s.channelLink
    instructions := Column.ofText s.instructions
    labelingConfig := Column.ofText s.labelingConfig
    taskData := Column.ofText s.taskData
    data := Column.ofText s.data
    createdAt := s.createdAt.column
    updatedAt := s.updatedAt.column }

/-- The submission of a row and its parts. -/
def submission? (r : SubmissionRow) (parts : List Part) : Except Misread Submission := do
  let createdAt ← readTime 16 "created_at" r.createdAt
  let updatedAt ← readTime 17 "updated_at" r.updatedAt
  return {
    id := r.id
    projectId := r.projectId
    batchId := r.batchId
    title := r.title
    description := r.description
    status := ⟨Column.text r.status⟩
    feedback := Column.text r.feedback
    parts := some parts
    timeElapsed := r.timeElapsed
    worker := Column.person r.worker
    projectOwner := Column.person r.projectOwner
    interfaceType := r.interfaceType
    channelLink := r.channelLink
    instructions := Column.text r.instructions
    labelingConfig := Column.text r.labelingConfig
    taskData := Column.text r.taskData
    data := Column.text r.data
    createdAt
    updatedAt }

/-- The row as a list shows it. -/
def summary? (r : SubmissionRow) : Except Misread Summary := do
  let createdAt ← readTime 4 "created_at" r.createdAt
  return {
    id := r.id
    title := r.title
    status := ⟨Column.text r.status⟩
    worker := Column.person r.worker
    createdAt }

end SubmissionRow

/-- The row of a part. -/
def PartRow.ofPart (submissionId : Int) (p : Part) : PartRow :=
  ⟨submissionId, p.index, Column.ofText p.status.label, Column.ofText p.feedback⟩

/-- The part of a row. -/
def PartRow.part (r : PartRow) : Part :=
  ⟨r.index, ⟨Column.text r.status⟩, Column.text r.feedback⟩

/-- The row of an attachment. -/
def AttachmentRow.ofAttachment (a : Attachment) : AttachmentRow :=
  ⟨a.id, a.submissionId, a.source, a.name, a.url, a.createdAt.column⟩

/-- The attachment of a row. -/
def AttachmentRow.attachment? (r : AttachmentRow) : Except Misread Attachment := do
  let createdAt ← readTime 5 "created_at" r.createdAt
  return ⟨r.id, r.submissionId, r.source, r.name, r.url, createdAt⟩

end ReviewQueue
