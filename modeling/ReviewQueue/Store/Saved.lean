import ReviewQueue.Store.Basic

/-! The store as a text, in which it is kept between two runs. -/

namespace ReviewQueue

open Json

/-- A column that may have no value. -/
def fillColumn : Filler (Option String) := fillOption "" fillString

def columnText (c : Option String) : List Char := optionText stringText c

namespace SubmissionRow

def saved (r : SubmissionRow) : List Char :=
  objectText
    [("id", intText r.id), ("projectId", stringText r.projectId), ("batchId", stringText r.batchId),
     ("title", stringText r.title), ("description", stringText r.description),
     ("status", columnText r.status), ("feedback", columnText r.feedback),
     ("timeElapsed", intText r.timeElapsed), ("worker", columnText r.worker),
     ("projectOwner", columnText r.projectOwner), ("interfaceType", stringText r.interfaceType),
     ("channelLink", stringText r.channelLink), ("instructions", columnText r.instructions),
     ("labelingConfig", columnText r.labelingConfig), ("taskData", columnText r.taskData),
     ("data", columnText r.data), ("createdAt", stringText r.createdAt),
     ("updatedAt", stringText r.updatedAt)]

def blank : SubmissionRow := .ofSubmission {}

def fill : Filler SubmissionRow :=
  fillRecord
    [field "id" SubmissionRow.id (fun r v => { r with id := v }) fillInt,
     field "projectId" SubmissionRow.projectId (fun r v => { r with projectId := v }) fillString,
     field "batchId" SubmissionRow.batchId (fun r v => { r with batchId := v }) fillString,
     field "title" SubmissionRow.title (fun r v => { r with title := v }) fillString,
     field "description" SubmissionRow.description (fun r v => { r with description := v })
       fillString,
     field "status" SubmissionRow.status (fun r v => { r with status := v }) fillColumn,
     field "feedback" SubmissionRow.feedback (fun r v => { r with feedback := v }) fillColumn,
     field "timeElapsed" SubmissionRow.timeElapsed (fun r v => { r with timeElapsed := v }) fillInt,
     field "worker" SubmissionRow.worker (fun r v => { r with worker := v }) fillColumn,
     field "projectOwner" SubmissionRow.projectOwner (fun r v => { r with projectOwner := v })
       fillColumn,
     field "interfaceType" SubmissionRow.interfaceType (fun r v => { r with interfaceType := v })
       fillString,
     field "channelLink" SubmissionRow.channelLink (fun r v => { r with channelLink := v })
       fillString,
     field "instructions" SubmissionRow.instructions (fun r v => { r with instructions := v })
       fillColumn,
     field "labelingConfig" SubmissionRow.labelingConfig
       (fun r v => { r with labelingConfig := v }) fillColumn,
     field "taskData" SubmissionRow.taskData (fun r v => { r with taskData := v }) fillColumn,
     field "data" SubmissionRow.data (fun r v => { r with data := v }) fillColumn,
     field "createdAt" SubmissionRow.createdAt (fun r v => { r with createdAt := v }) fillString,
     field "updatedAt" SubmissionRow.updatedAt (fun r v => { r with updatedAt := v }) fillString]

end SubmissionRow

namespace PartRow

def saved (r : PartRow) : List Char :=
  objectText
    [("submissionId", intText r.submissionId), ("index", intText r.index),
     ("status", columnText r.status), ("feedback", columnText r.feedback)]

def fill : Filler PartRow :=
  fillRecord
    [field "submissionId" PartRow.submissionId (fun r v => { r with submissionId := v }) fillInt,
     field "index" PartRow.index (fun r v => { r with index := v }) fillInt,
     field "status" PartRow.status (fun r v => { r with status := v }) fillColumn,
     field "feedback" PartRow.feedback (fun r v => { r with feedback := v }) fillColumn]

end PartRow

namespace AttachmentRow

def saved (r : AttachmentRow) : List Char :=
  objectText
    [("id", stringText r.id), ("submissionId", intText r.submissionId),
     ("source", stringText r.source), ("name", stringText r.name), ("url", stringText r.url),
     ("createdAt", stringText r.createdAt)]

def fill : Filler AttachmentRow :=
  fillRecord
    [field "id" AttachmentRow.id (fun r v => { r with id := v }) fillString,
     field "submissionId" AttachmentRow.submissionId (fun r v => { r with submissionId := v })
       fillInt,
     field "source" AttachmentRow.source (fun r v => { r with source := v }) fillString,
     field "name" AttachmentRow.name (fun r v => { r with name := v }) fillString,
     field "url" AttachmentRow.url (fun r v => { r with url := v }) fillString,
     field "createdAt" AttachmentRow.createdAt (fun r v => { r with createdAt := v }) fillString]

end AttachmentRow

namespace Store

/-- The text of a store. -/
def saved (store : Store) : String :=
  .ofList (objectText
    [("lastId", intText store.lastId),
     ("submissions", arrayText (store.submissions.map SubmissionRow.saved)),
     ("parts", arrayText (store.parts.map PartRow.saved)),
     ("attachments", arrayText (store.attachments.map AttachmentRow.saved))])

def fill : Filler Store :=
  fillRecord
    [field "lastId" Store.lastId (fun s v => { s with lastId := v }) fillInt,
     field "submissions" (fun s => some s.submissions)
       (fun s v => { s with submissions := v.getD [] })
       (fillList SubmissionRow.blank SubmissionRow.fill),
     field "parts" (fun s => some s.parts) (fun s v => { s with parts := v.getD [] })
       (fillList ⟨0, 0, none, none⟩ PartRow.fill),
     field "attachments" (fun s => some s.attachments)
       (fun s v => { s with attachments := v.getD [] })
       (fillList ⟨"", 0, "", "", "", ""⟩ AttachmentRow.fill)]

/-- Reads a store out of its text. -/
def ofSaved? (text : String) : Option Store :=
  if text.toList.head? = some '\x7b' then decode? {} fill text.toList else none

end Store
end ReviewQueue
