import ReviewQueue.Text.Blank
import ReviewQueue.Text.Quoted

/-! The file that names the process of a running server.

The operations are steps on the content of the file. Whether a process is alive comes from outside,
as it may change between two steps. -/

namespace ReviewQueue

/-- The content of the file, missing when there is no file. -/
structure PidFile where
  content : Option String := none
  deriving DecidableEq, Repr, Inhabited

/-- Why an operation on the file failed. -/
inductive PidError where
  /-- There is no file to open. -/
  | noFile
  /-- There is no file to remove. -/
  | nothingToRemove
  /-- The file holds something else than a number. -/
  | invalid (text : String) (cause : Text.NumeralError)
  /-- A live process owns the file. -/
  | alreadyRunning (pid : Int)
  /-- No live process owns the file. -/
  | notRunning
  /-- The owner could not be asked to end. -/
  | unasked (pid : Int) (reason : String)
  /-- The owner could not be killed. -/
  | unkilled (pid : Int) (reason : String)
  deriving DecidableEq, Repr

/-- The wording of an error for the file at a path. -/
def PidError.message (path : String) : PidError → String
  | .noFile => "open " ++ path ++ ": no such file or directory"
  | .nothingToRemove => "remove " ++ path ++ ": no such file or directory"
  | .invalid text cause =>
    "invalid PID file content: strconv.Atoi: parsing " ++ Text.quoted text ++ ": " ++ cause.message
  | .alreadyRunning pid => "server already running (pid " ++ Text.ofInt pid ++ ")"
  | .notRunning => "server not running"
  | .unasked pid reason => "terminate pid " ++ Text.ofInt pid ++ ": " ++ reason
  | .unkilled pid reason => "kill pid " ++ Text.ofInt pid ++ ": " ++ reason

/-- How a process takes being asked to end, within the time that it is given. -/
inductive Ending where
  | ended
  /-- It was killed when the time was up. -/
  | killed
  /-- It could not be asked. -/
  | unasked (reason : String)
  /-- It could not be killed when the time was up, and lives on. -/
  | unkilled (reason : String)
  deriving DecidableEq, Repr

namespace PidFile

/-- Reads the process number. -/
def read (f : PidFile) : Except PidError Int :=
  match f.content with
  | none => .error .noFile
  | some text =>
    let text := Text.trim text.toList
    match Text.readNumeral text with
    | .ok pid => .ok pid
    | .error cause => .error (.invalid (.ofList text) cause)

/-- The file that names a process. -/
def ofPid (pid : Int) : PidFile :=
  ⟨some (.ofList (Text.numeral pid ++ ['\n']))⟩

/-- The process number, zero when it cannot be read, and whether that process is alive. -/
def running (alive : Int → Bool) (f : PidFile) : Int × Bool :=
  match f.read with
  | .ok pid => (pid, alive pid)
  | .error _ => (0, false)

/-- Makes a process the owner. A file that a dead process left behind is replaced; that of a live
one is not. -/
def acquire (alive : Int → Bool) (f : PidFile) (pid : Int) : Except PidError PidFile :=
  match f.running alive with
  | (owner, true) => .error (.alreadyRunning owner)
  | (_, false) => .ok (ofPid pid)

/-- Removes the file. -/
def remove (f : PidFile) : Except PidError PidFile :=
  match f.content with
  | none => .error .nothingToRemove
  | some _ => .ok ⟨none⟩

/-- Removes the file if it names a process. -/
def release (f : PidFile) (pid : Int) : Except PidError PidFile :=
  match f.read with
  | .error .noFile => .ok f
  | .error e => .error e
  | .ok owner => if owner = pid then f.remove else .ok f

/-- What became of a server that was to be stopped. -/
structure Stopped where
  pid : Int
  killed : Bool := false
  /-- The file after it, or why it failed. -/
  result : Except PidError PidFile

/-- Stops the owner and removes the file. -/
def stop (alive : Int → Bool) (ending : Int → Ending) (f : PidFile) : Stopped :=
  match f.running alive with
  | (pid, false) => { pid, result := .error .notRunning }
  | (pid, true) =>
    match ending pid with
    | .ended => { pid, result := f.release pid }
    | .killed => { pid, killed := true, result := f.release pid }
    | .unasked reason => { pid, result := .error (.unasked pid reason) }
    | .unkilled reason => { pid, result := .error (.unkilled pid reason) }

end PidFile
end ReviewQueue
