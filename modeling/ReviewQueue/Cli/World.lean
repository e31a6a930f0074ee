import ReviewQueue.Cli.Command
import ReviewQueue.Cli.Files
import ReviewQueue.Import.Run
import ReviewQueue.PidFile
import ReviewQueue.Review.Reviewer
import ReviewQueue.Settings.OfFile
import ReviewQueue.Settings.Render

/-! What a command works on, and why it may fail. -/

namespace ReviewQueue.Cli

/-- What other programs do when they are run, and which processes there are. -/
structure Programs where
  /-- Runs a program to its end; the result is why it failed. -/
  run : List String → Option String := fun _ => none
  /-- Starts a program in the background; the result is its number, or why it failed. -/
  start : List String → Except String Int := fun _ => .ok 1
  /-- Stops a program. -/
  stop : Int → Ending := fun _ => .ended
  alive : Int → Bool := fun _ => false

/-- What a command works on. -/
structure World (ω : Type) where
  files : Files := []
  env : List (String × String) := []
  home : String
  terminal : Terminal := {}
  /-- The far side of the wire. -/
  peer : ω
  drafter : Drafter := fun _ _ => .lost "no answer"
  clock : Clock
  /-- The number of this process. -/
  pid : Int := 2
  executable : String := "rq"
  programs : Programs := {}

/-- Why a command failed. -/
inductive CliError where
  | unknownCommand (cause : Command.Unknown)
  | flag (cause : FlagError)
  | arity (wanted : Arity) (received : Nat)
  | missingFlags (names : List String)
  | badStatus (status : String)
  | badId (id : String)
  /-- A file operation failed in the course of an action. -/
  | file (action : String) (cause : FileError)
  /-- The database file holds something else. -/
  | noDatabase
  | importFile (cause : ImportFileError)
  | importRun (cause : ImportError)
  | store (cause : StoreError)
  /-- A store operation failed for a submission. -/
  | submission (id : Int) (cause : StoreError)
  | configExists (path : String)
  | configMissing (path : String)
  | noEditor
  | editor (program : String) (reason : String)
  | pidFile (path : String) (cause : PidError)
  | stop (path : String) (cause : PidError)
  | running (pid : Int)
  | start (reason : String)
  | badPort (port : Int)
  | noDraftKey
  | review (cause : ReviewError)
  deriving DecidableEq, Repr

/-- The wording of a command's error. -/
def CliError.message : CliError → String
  | .unknownCommand cause => Command.unknownText cause.typed
  | .flag cause => cause.message
  | .arity wanted received => wanted.refusal received
  | .missingFlags names =>
    "required flag(s) \"" ++ "\", \"".intercalate names ++ "\" not set"
  | .badStatus status => "invalid status: " ++ status
  | .badId id => "invalid submission id: " ++ id
  | .file action cause => action ++ ": " ++ cause.message
  | .noDatabase => "open database: journal_mode=wal: file is not a database (26)"
  | .importFile cause => cause.message
  | .importRun cause => cause.message
  | .store cause => cause.message
  | .submission id cause => "submission " ++ Text.ofInt id ++ ": " ++ cause.message
  | .configExists path => path ++ " already exists (use --force to replace it)"
  | .configMissing path => "config file not found: " ++ path ++ " (run 'rq config init' first)"
  | .noEditor => Settings.noEditor
  | .editor program reason => "editor " ++ program ++ ": " ++ reason
  | .pidFile path cause => cause.message path
  | .stop path cause => "stop server: " ++ cause.message path
  | .running pid => "server already running (pid " ++ Text.ofInt pid ++ ")"
  | .start reason => "start server: " ++ reason
  | .badPort port =>
    "listen :" ++ Text.ofInt port ++ ": listen tcp: address " ++ Text.ofInt port ++
      ": invalid port"
  | .noDraftKey =>
    "--draft needs ANTHROPIC_API_KEY (set env var or anthropic.api_key in config)"
  | .review cause => cause.message

/-- An action of a command. What was written and changed before an error stays. -/
abbrev Activity (ω : Type) := ExceptT CliError (StateM (World ω))

namespace Activity

/-- Lets something be written to the terminal. -/
def tell (f : Console → Console) : Activity ω Unit :=
  modify fun w => { w with terminal := w.terminal.tell f }

/-- The result of an operation, or its error as an error of the command. -/
def lift (f : ε → CliError) : Except ε α → Activity ω α
  | .ok a => pure a
  | .error e => throw (f e)

end Activity

namespace World

/-- The configuration file of a home directory. -/
def configPath (w : World ω) : String := Settings.configDir w.home ++ "/config.yaml"

/-- The configuration file that is found without being named. -/
def foundConfig? (w : World ω) : Option String :=
  (Settings.candidates w.home).find? fun path => (w.files.find? path).isSome

/-- The settings in the configuration file, of which `named` is the path if it is given. -/
def fileSettings (w : World ω) (named : String) : List (String × SettingValue) :=
  if named ≠ "" then
    (w.files.text? named).elim [] (SettingValue.ofNamedFile (Path.extension named))
  else
    match w.foundConfig? with
    | some path => (w.files.text? path).elim [] SettingValue.ofFile
    | none => []

/-- The settings for a command line. -/
def settings (w : World ω) (p : Parsed) : Settings :=
  { given :=
      match p.value? "port" with
      | some (.int port) => [("serve.port", .int port)]
      | _ => []
    env := w.env
    file := w.fileSettings (p.text "config")
    defaults := Settings.standard w.home }

end World
end ReviewQueue.Cli
