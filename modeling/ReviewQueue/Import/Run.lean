import ReviewQueue.Console.Basic
import ReviewQueue.Import.File
import ReviewQueue.Store.Timed

/-! The import of a file into the store.

A submission is created when its title is new to the batch, and skipped otherwise. A rehearsal
announces what would be created and changes nothing. -/

namespace ReviewQueue

/-- Why an import failed. -/
inductive ImportError where
  | list (cause : StoreError)
  | create (title : String) (cause : StoreError)
  | attach (name : String) (cause : StoreError)
  deriving DecidableEq, Repr

namespace ImportError

/-- The store error behind an import error. -/
def cause : ImportError → StoreError
  | .list cause | .create _ cause | .attach _ cause => cause

/-- The wording of an import error. -/
def message : ImportError → String
  | .list cause => cause.message
  | .create title cause => "create submission " ++ Text.quoted title ++ ": " ++ cause.message
  | .attach name cause => "create attachment " ++ Text.quoted name ++ ": " ++ cause.message

end ImportError

/-- An import under way: the store, the terminal, the titles that are taken, and the counts. -/
structure Import where
  stored : TimedStore
  console : Console
  titles : List String := []
  created : Nat := 0
  skipped : Nat := 0

namespace Import

/-- The submission that a record describes. -/
def submission (f : ImportFile) (r : ImportRecord) : Submission :=
  { projectId := f.project
    batchId := f.batch
    title := r.title
    description := r.description
    worker := r.worker
    projectOwner := r.projectOwner
    interfaceType := r.interfaceType
    timeElapsed := r.timeElapsed
    channelLink := r.channelLink
    parts := r.parts }

/-- The attachment that a record describes. -/
def attachment (id : Int) (a : ImportAttachment) : Attachment :=
  { submissionId := id, source := a.source, name := a.name, url := a.url }

/-- What a rehearsal says about a record. -/
def announcement (r : ImportRecord) : String :=
  "Would create submission " ++ Text.quoted r.title ++ " (" ++
    Text.ofInt (r.parts.getD []).length ++ " parts, " ++
    Text.ofInt (r.attachments.getD []).length ++ " attachments)"

/-- Attaches the files of a record in order, up to the first that fails. -/
def attachAll (id : Int) : TimedStore → List ImportAttachment → TimedStore × Option ImportError
  | t, [] => (t, none)
  | t, a :: rest =>
    match t.attach (attachment id a) with
    | (t, .ok _) => attachAll id t rest
    | (t, .error e) => (t, some (.attach a.name e))

/-- Creates the submission of a record with its attachments. -/
def createOne (f : ImportFile) (t : TimedStore) (r : ImportRecord) :
    TimedStore × Option ImportError :=
  match t.create (submission f r) with
  | (t, .error e) => (t, some (.create r.title e))
  | (t, .ok s) => attachAll s.id t (r.attachments.getD [])

/-- Imports one record. -/
def step (f : ImportFile) (i : Import) (r : ImportRecord) : Import × Option ImportError :=
  if i.titles.contains r.title then
    ({ i with
      console := i.console.detail ("Skipping existing submission " ++ Text.quoted r.title)
      skipped := i.skipped + 1 }, none)
  else if i.console.dryRun then ({ i with console := i.console.rehearse (announcement r) }, none)
  else
    match createOne f i.stored r with
    | (stored, some e) => ({ i with stored }, some e)
    | (stored, none) =>
      ({ i with stored, titles := r.title :: i.titles, created := i.created + 1 }, none)

/-- Imports records in order, up to the first that fails. -/
def steps (f : ImportFile) : Import → List ImportRecord → Import × Option ImportError
  | i, [] => (i, none)
  | i, r :: rest =>
    match step f i r with
    | (i, none) => steps f i rest
    | (i, some e) => (i, some e)

/-- What is said at the end. -/
def summary (i : Import) (f : ImportFile) : String :=
  "Imported " ++ Text.ofInt i.created ++ " submissions into " ++ f.project ++ "/" ++ f.batch ++
    " (" ++ Text.ofInt i.skipped ++ " already present)"

/-- Imports a file. -/
def run (f : ImportFile) (t : TimedStore) (c : Console) : Import × Option ImportError :=
  match t.store.list { projectId := f.project, batchId := f.batch } with
  | .error e => ({ stored := t, console := c }, some (.list e))
  | .ok existing =>
    match steps f { stored := t, console := c, titles := existing.map Summary.title } f.records with
    | (i, some e) => (i, some e)
    | (i, none) => ({ i with console := i.console.success (i.summary f) }, none)

end Import
end ReviewQueue
