import ReviewQueue.Domain.Verdict
import ReviewQueue.Json.Fill

/-! The JSON form of the domain records.

Each record has its members in a fixed order; a member that says nothing is left out where the
record allows it. Encoding fails only when a raw field holds a text that is no JSON, or a time has
a zone of a day or more. -/

namespace ReviewQueue

open Json

/-- A member that is always written. -/
def member (name : String) (text : List Char) : Option (String × List Char) :=
  some (name, text)

/-- A text member that is left out when it is empty. -/
def nonEmptyMember (name : String) (s : String) : Option (String × List Char) :=
  if s = "" then none else some (name, stringText s)

/-- A member that is left out when it is missing. -/
def presentMember (name : String) (f : α → List Char) (a : Option α) :
    Option (String × List Char) :=
  a.map fun a => (name, f a)

/-- The object of the members that are written. -/
def record (members : List (Option (String × List Char))) : List Char :=
  objectText (members.filterMap id)

/-- A raw field: left out when it is empty, compacted otherwise, and a failure when it is no
JSON. -/
def rawMember? (name : String) (raw : String) : Option (Option (String × List Char)) :=
  if raw = "" then some none
  else (compact? raw.toList).map fun t => some (name, t)

/-! ## Verdict labels, people and parts -/

namespace Status

def json (s : Status) : List Char := stringText s.label

def fill : Filler Status := fun old s =>
  let r := fillString old.label s
  ⟨⟨r.value⟩, r.fits⟩

end Status

namespace Person

def json (p : Person) : List Char :=
  record
    [member "id" (intText p.id),
     member "firstName" (stringText p.firstName),
     member "lastName" (stringText p.lastName),
     nonEmptyMember "profilePicture" p.profilePicture]

def fields : List (RecordField Person) :=
  [field "id" Person.id (fun p v => { p with id := v }) fillInt,
   field "firstName" Person.firstName (fun p v => { p with firstName := v }) fillString,
   field "lastName" Person.lastName (fun p v => { p with lastName := v }) fillString,
   field "profilePicture" Person.profilePicture (fun p v => { p with profilePicture := v })
     fillString]

def fill : Filler Person := fillRecord fields

end Person

namespace Part

def json (p : Part) : List Char :=
  record
    [member "index" (intText p.index),
     member "reviewStatus" p.status.json,
     member "feedback" (stringText p.feedback)]

def fields : List (RecordField Part) :=
  [field "index" Part.index (fun p v => { p with index := v }) fillInt,
   field "reviewStatus" Part.status (fun p v => { p with status := v }) Status.fill,
   field "feedback" Part.feedback (fun p v => { p with feedback := v }) fillString]

def fill : Filler Part := fillRecord fields

end Part

/-! ## Submissions -/

namespace Submission

/-- The JSON form, unless a raw field or a time has none. -/
def json? (s : Submission) : Option (List Char) := do
  let instructions ← rawMember? "instructions" s.instructions
  let labelingConfig ← rawMember? "labelingConfig" s.labelingConfig
  let taskData ← rawMember? "taskData" s.taskData
  let data ← rawMember? "data" s.data
  let createdAt ← s.createdAt.json?
  let updatedAt ← s.updatedAt.json?
  return record
    [member "id" (intText s.id),
     member "projectId" (stringText s.projectId),
     member "batchId" (stringText s.batchId),
     member "title" (stringText s.title),
     member "description" (stringText s.description),
     member "status" s.status.json,
     member "feedback" (stringText s.feedback),
     member "parts" (listText Part.json s.parts),
     member "timeElapsed" (intText s.timeElapsed),
     presentMember "worker" Person.json s.worker,
     presentMember "projectOwner" Person.json s.projectOwner,
     member "interfaceType" (stringText s.interfaceType),
     nonEmptyMember "internalComsChannelLink" s.channelLink,
     instructions, labelingConfig, taskData, data,
     member "createdAt" createdAt,
     member "updatedAt" updatedAt]

def fields : List (RecordField Submission) :=
  [field "id" Submission.id (fun s v => { s with id := v }) fillInt,
   field "projectId" Submission.projectId (fun s v => { s with projectId := v }) fillString,
   field "batchId" Submission.batchId (fun s v => { s with batchId := v }) fillString,
   field "title" Submission.title (fun s v => { s with title := v }) fillString,
   field "description" Submission.description (fun s v => { s with description := v }) fillString,
   field "status" Submission.status (fun s v => { s with status := v }) Status.fill,
   field "feedback" Submission.feedback (fun s v => { s with feedback := v }) fillString,
   field "parts" Submission.parts (fun s v => { s with parts := v }) (fillList {} Part.fill),
   field "timeElapsed" Submission.timeElapsed (fun s v => { s with timeElapsed := v }) fillInt,
   field "worker" Submission.worker (fun s v => { s with worker := v })
     (fillOption {} Person.fill),
   field "projectOwner" Submission.projectOwner (fun s v => { s with projectOwner := v })
     (fillOption {} Person.fill),
   field "interfaceType" Submission.interfaceType (fun s v => { s with interfaceType := v })
     fillString,
   field "internalComsChannelLink" Submission.channelLink (fun s v => { s with channelLink := v })
     fillString,
   field "instructions" Submission.instructions (fun s v => { s with instructions := v }) fillRaw,
   field "labelingConfig" Submission.labelingConfig (fun s v => { s with labelingConfig := v })
     fillRaw,
   field "taskData" Submission.taskData (fun s v => { s with taskData := v }) fillRaw,
   field "data" Submission.data (fun s v => { s with data := v }) fillRaw,
   field "createdAt" Submission.createdAt (fun s v => { s with createdAt := v }) Timestamp.fill,
   field "updatedAt" Submission.updatedAt (fun s v => { s with updatedAt := v }) Timestamp.fill]

def fill : Filler Submission := fillRecord fields

end Submission

namespace Summary

/-- The JSON form, unless the time has none. -/
def json? (s : Summary) : Option (List Char) := do
  let createdAt ← s.createdAt.json?
  return record
    [member "id" (intText s.id),
     member "title" (stringText s.title),
     member "status" s.status.json,
     presentMember "worker" Person.json s.worker,
     member "createdAt" createdAt]

def fields : List (RecordField Summary) :=
  [field "id" Summary.id (fun s v => { s with id := v }) fillInt,
   field "title" Summary.title (fun s v => { s with title := v }) fillString,
   field "status" Summary.status (fun s v => { s with status := v }) Status.fill,
   field "worker" Summary.worker (fun s v => { s with worker := v }) (fillOption {} Person.fill),
   field "createdAt" Summary.createdAt (fun s v => { s with createdAt := v }) Timestamp.fill]

def fill : Filler Summary := fillRecord fields

end Summary

/-- The JSON form of a list of items that may be missing one by one. -/
def optionItems? (f : α → Option (List Char)) : Option (List (Option α)) → Option (List Char)
  | none => some nullText
  | some items =>
    (items.mapM fun
      | none => some nullText
      | some a => f a).map arrayText

namespace SummaryList

/-- The JSON form, unless a time has none. -/
def json? (l : SummaryList) : Option (List Char) := do
  let results ← optionItems? Summary.json? l.results
  return record [member "count" (intText l.count), member "results" results]

def fields : List (RecordField SummaryList) :=
  [field "count" SummaryList.count (fun l v => { l with count := v }) fillInt,
   field "results" SummaryList.results (fun l v => { l with results := v })
     (fillList none (fillOption {} Summary.fill))]

def fill : Filler SummaryList := fillRecord fields

end SummaryList

/-! ## Attachments -/

namespace Attachment

/-- The JSON form, unless the time has none. -/
def json? (a : Attachment) : Option (List Char) := do
  let createdAt ← a.createdAt.json?
  return record
    [member "id" (stringText a.id),
     member "submissionId" (intText a.submissionId),
     member "source" (stringText a.source),
     member "name" (stringText a.name),
     member "url" (stringText a.url),
     member "createdAt" createdAt]

def fields : List (RecordField Attachment) :=
  [field "id" Attachment.id (fun a v => { a with id := v }) fillString,
   field "submissionId" Attachment.submissionId (fun a v => { a with submissionId := v }) fillInt,
   field "source" Attachment.source (fun a v => { a with source := v }) fillString,
   field "name" Attachment.name (fun a v => { a with name := v }) fillString,
   field "url" Attachment.url (fun a v => { a with url := v }) fillString,
   field "createdAt" Attachment.createdAt (fun a v => { a with createdAt := v }) Timestamp.fill]

def fill : Filler Attachment := fillRecord fields

/-- Lists of attachments, of which single items may be missing. -/
def fillAll : Filler (Option (List (Option Attachment))) :=
  fillList none (fillOption {} fill)

/-- The JSON form of a list of attachments. -/
def listJson? (items : Option (List (Option Attachment))) : Option (List Char) :=
  optionItems? json? items

end Attachment

/-! ## Verdicts, options and refusals -/

namespace PartVerdict

def json (p : PartVerdict) : List Char :=
  record
    [member "submission" (intText p.submission),
     member "index" (intText p.index),
     member "reviewStatus" p.status.json,
     member "feedback" (stringText p.feedback)]

def fields : List (RecordField PartVerdict) :=
  [field "submission" PartVerdict.submission (fun p v => { p with submission := v }) fillInt,
   field "index" PartVerdict.index (fun p v => { p with index := v }) fillInt,
   field "reviewStatus" PartVerdict.status (fun p v => { p with status := v }) Status.fill,
   field "feedback" PartVerdict.feedback (fun p v => { p with feedback := v }) fillString]

def fill : Filler PartVerdict := fillRecord fields

end PartVerdict

namespace Verdict

/-- The JSON form; what an update leaves empty is left out. -/
def json (v : Verdict) : List Char :=
  record
    [member "timeElapsed" (intText v.timeElapsed),
     nonEmptyMember "status" v.status.label,
     nonEmptyMember "feedback" v.feedback,
     if v.hasParts then member "parts" (arrayText (v.partList.map PartVerdict.json)) else none]

def fields : List (RecordField Verdict) :=
  [field "timeElapsed" Verdict.timeElapsed (fun v x => { v with timeElapsed := x }) fillInt,
   field "status" Verdict.status (fun v x => { v with status := x }) Status.fill,
   field "feedback" Verdict.feedback (fun v x => { v with feedback := x }) fillString,
   field "parts" Verdict.parts (fun v x => { v with parts := x })
     (fillList {} PartVerdict.fill)]

def fill : Filler Verdict := fillRecord fields

end Verdict

namespace Notice

def json (n : Notice) : List Char :=
  record [member "message" (stringText n.message), member "type" (stringText n.kind)]

def fields : List (RecordField Notice) :=
  [field "message" Notice.message (fun n v => { n with message := v }) fillString,
   field "type" Notice.kind (fun n v => { n with kind := v }) fillString]

def fill : Filler Notice := fillRecord fields

end Notice

namespace Refusal

def json (r : Refusal) : List Char :=
  record [member "info" (listText Notice.json r.info)]

def fields : List (RecordField Refusal) :=
  [field "info" Refusal.info (fun r v => { r with info := v }) (fillList {} Notice.fill)]

def fill : Filler Refusal := fillRecord fields

end Refusal

namespace StatusOption

def json (o : StatusOption) : List Char :=
  record [member "label" o.label.json]

def fields : List (RecordField StatusOption) :=
  [field "label" StatusOption.label (fun o v => { o with label := v }) Status.fill]

def fill : Filler StatusOption := fillRecord fields

end StatusOption

namespace StatusOptionList

def json (l : StatusOptionList) : List Char :=
  record [member "results" (listText StatusOption.json l.results)]

def fields : List (RecordField StatusOptionList) :=
  [field "results" StatusOptionList.results (fun l v => { l with results := v })
     (fillList {} StatusOption.fill)]

def fill : Filler StatusOptionList := fillRecord fields

end StatusOptionList

end ReviewQueue
