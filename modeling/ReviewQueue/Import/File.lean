import ReviewQueue.Domain.Submission
import ReviewQueue.Text.Blank
import ReviewQueue.Text.Quoted
import ReviewQueue.Yaml.Decode

/-! Files of submissions to import.

A file names a project and a batch and lists submissions for it. It is accepted when it is a YAML
document of this form, project and batch are named, every submission has a title that is not blank,
and no submission has two parts of one index. -/

namespace ReviewQueue

/-- An attachment of a submission to import. -/
structure ImportAttachment where
  source : String := ""
  name : String := ""
  url : String := ""
  deriving DecidableEq, Repr, Inhabited

/-- A submission to import. -/
structure ImportRecord where
  title : String := ""
  description : String := ""
  worker : Option Person := none
  projectOwner : Option Person := none
  interfaceType : String := ""
  timeElapsed : Int := 0
  channelLink : String := ""
  parts : Option (List Part) := none
  attachments : Option (List ImportAttachment) := none
  deriving DecidableEq, Repr, Inhabited

/-- What a file holds. -/
structure ImportFile where
  project : String := ""
  batch : String := ""
  submissions : Option (List ImportRecord) := none
  deriving DecidableEq, Repr, Inhabited

/-- Why a file is not accepted. -/
inductive ImportFileError where
  | yaml (cause : YamlError)
  | noBatch
  /-- A submission, counted from one, has no title. -/
  | noTitle (number : Nat)
  | repeatedPart (title : String) (index : Int)
  deriving DecidableEq, Repr

/-- The wording of a file error. -/
def ImportFileError.message : ImportFileError → String
  | .yaml cause => "parse YAML: " ++ cause.message
  | .noBatch => "project and batch are required"
  | .noTitle number => "submission " ++ Text.ofInt number ++ ": title is required"
  | .repeatedPart title index =>
    "submission " ++ Text.quoted title ++ ": duplicate part index " ++ Text.ofInt index

namespace ImportFile

open Yaml

/-! ## Decoding -/

def decodePerson : Decoder Person :=
  decodeRecord {}
    [field "id" decodeInt fun p v => { p with id := v },
     field "first_name" decodeText fun p v => { p with firstName := v },
     field "last_name" decodeText fun p v => { p with lastName := v },
     field "profile_picture" decodeText fun p v => { p with profilePicture := v }]

def decodePart : Decoder Part :=
  decodeRecord {}
    [field "index" decodeInt fun p v => { p with index := v },
     field "review_status" decodeText fun p v => { p with status := ⟨v⟩ },
     field "feedback" decodeText fun p v => { p with feedback := v }]

def decodeAttachment : Decoder ImportAttachment :=
  decodeRecord {}
    [field "source" decodeText fun a v => { a with source := v },
     field "name" decodeText fun a v => { a with name := v },
     field "url" decodeText fun a v => { a with url := v }]

def decodeSubmission : Decoder ImportRecord :=
  decodeRecord {}
    [field "title" decodeText fun r v => { r with title := v },
     field "description" decodeText fun r v => { r with description := v },
     field "worker" decodePerson fun r v => { r with worker := some v },
     field "project_owner" decodePerson fun r v => { r with projectOwner := some v },
     field "interface_type" decodeText fun r v => { r with interfaceType := v },
     field "time_elapsed" decodeInt fun r v => { r with timeElapsed := v },
     field "channel_link" decodeText fun r v => { r with channelLink := v },
     field "parts" (decodeList decodePart) fun r v => { r with parts := some v },
     field "attachments" (decodeList decodeAttachment) fun r v =>
       { r with attachments := some v }]

def decodeFile : Decoder ImportFile :=
  decodeRecord {}
    [field "project" decodeText fun f v => { f with project := v },
     field "batch" decodeText fun f v => { f with batch := v },
     field "submissions" (decodeList decodeSubmission) fun f v => { f with submissions := some v }]

/-! ## Checking -/

/-- The submissions, none when the list is missing. -/
def records (f : ImportFile) : List ImportRecord := f.submissions.getD []

/-- What is wrong with a submission, given its number. -/
def recordDefect? (number : Nat) (r : ImportRecord) : Option ImportFileError :=
  if (Text.trim r.title.toList).isEmpty then some (.noTitle number)
  else (Part.repeatedIndex? [] (r.parts.getD [])).map (.repeatedPart r.title)

/-- What is wrong with the first submission that something is wrong with. -/
def recordsDefect? (number : Nat) : List ImportRecord → Option ImportFileError
  | [] => none
  | r :: rest => (recordDefect? number r).or (recordsDefect? (number + 1) rest)

/-- What is wrong with a file. -/
def defect? (f : ImportFile) : Option ImportFileError :=
  if f.project = "" ∨ f.batch = "" then some .noBatch else recordsDefect? 1 f.records

/-- Reads a file. -/
def read (text : String) : Except ImportFileError ImportFile :=
  match Yaml.read text >>= decodeFile with
  | .error e => .error (.yaml e)
  | .ok f =>
    let f := f.getD {}
    match f.defect? with
    | some e => .error e
    | none => .ok f

end ImportFile
end ReviewQueue
