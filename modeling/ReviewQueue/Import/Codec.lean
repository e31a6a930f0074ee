import ReviewQueue.Domain.Codec
import ReviewQueue.Import.File

/-! The JSON form of files to import. -/

namespace ReviewQueue

open Json

def ImportAttachment.json (a : ImportAttachment) : List Char :=
  record
    [member "Source" (stringText a.source),
     member "Name" (stringText a.name),
     member "URL" (stringText a.url)]

def ImportRecord.json (r : ImportRecord) : List Char :=
  record
    [member "Title" (stringText r.title),
     member "Description" (stringText r.description),
     member "Worker" (optionText Person.json r.worker),
     member "ProjectOwner" (optionText Person.json r.projectOwner),
     member "InterfaceType" (stringText r.interfaceType),
     member "TimeElapsed" (intText r.timeElapsed),
     member "ChannelLink" (stringText r.channelLink),
     member "Parts" (listText Part.json r.parts),
     member "Attachments" (listText ImportAttachment.json r.attachments)]

def ImportFile.json (f : ImportFile) : List Char :=
  record
    [member "Project" (stringText f.project),
     member "Batch" (stringText f.batch),
     member "Submissions" (listText ImportRecord.json f.submissions)]

end ReviewQueue
