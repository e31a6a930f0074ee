import ReviewQueue.Cli.World
import ReviewQueue.Console.Table
import ReviewQueue.Store.Timed

/-! The commands at work. -/

namespace ReviewQueue.Cli

open Activity

/-- The version that is shown. -/
def versionText : String := "rq dev (commit none, built unknown)"

/-! ## The database -/

/-- Whether a database of this name is gone when the command ends. -/
def isTemporary (path : String) : Bool := path == "" || path == ":memory:"

/-- Opens the database. A file that is missing or empty is a new one. -/
def openStore (s : Settings) : Activity ω TimedStore := do
  let w ← get
  let path := s.getText "db_path"
  lift (.file "open database: create db directory") (w.files.makeDirectory (Path.directory path))
  if isTemporary path then return ⟨{}, w.clock⟩
  match w.files.find? path with
  | some (.database store) => return ⟨store, w.clock⟩
  | some (.text content) =>
    if content = "" then return ⟨{}, w.clock⟩ else throw .noDatabase
  | none => return ⟨{}, w.clock⟩

/-- Keeps the database. -/
def keepStore (s : Settings) (t : TimedStore) : Activity ω Unit := do
  let path := s.getText "db_path"
  modify fun w =>
    { w with
      clock := t.clock
      files := if isTemporary path then w.files else w.files.put path (.database t.store) }

/-! ## Submissions -/

/-- The verdict that a list is restricted to. -/
def readStatus (text : String) : Except CliError Status :=
  let status : Status := ⟨Text.upper text⟩
  if text = "" then .ok .none
  else if status.isKnown then .ok status
  else .error (.badStatus text)

/-- A submission as a row of a table. -/
def summaryRow (c : Console) (s : Summary) : List String :=
  [Text.ofInt s.id, s.title, c.status s.status.label, Person.fullName? s.worker,
   s.createdAt.minuteText]

/-- Lists the submissions of a batch. -/
def listSubmissions (s : Settings) (p : Parsed) : Activity ω Unit := do
  let t ← openStore s
  keepStore s t
  let status ← lift id (readStatus (p.text "status"))
  let items ← lift .store
    (t.store.list { projectId := p.text "project", batchId := p.text "batch", status })
  if items.isEmpty then tell (·.info "No submissions found.")
  else
    tell fun c =>
      c.write (Console.Table.text
        ⟨["ID", "Title", "Status", "Worker", "Created"], items.map (summaryRow c)⟩)

/-- Shows one submission with its attachments. -/
def showSubmission (s : Settings) (arg : String) : Activity ω Unit := do
  match Text.toInt? arg with
  | none => throw (.badId arg)
  | some id =>
    let t ← openStore s
    keepStore s t
    let item ← lift (.submission id) (t.store.get id)
    tell (·.showSubmission item)
    let attachments ← lift .store (t.store.attachmentsOf id)
    tell (·.showAttachments (Buckets.ofItems attachments))

/-- Imports a file of submissions. -/
def importSubmissions (s : Settings) (path : String) : Activity ω Unit := do
  let text ← lift (.file "read file") ((← get).files.read path)
  let file ← lift .importFile (ImportFile.read text)
  let t ← openStore s
  let (i, e) := Import.run file t (← get).terminal.console
  tell fun _ => i.console
  keepStore s i.stored
  match e with
  | some e => throw (.importRun e)
  | none => return

/-! ## Settings -/

/-- The value of a setting as it is shown. -/
def shownSetting (s : Settings) (st : Setting) : String :=
  let value := s.get st.key
  if value.isEmpty then "-" else if st.secret then "********" else value.shown

/-- Shows every setting and where its value comes from. -/
def showConfig (s : Settings) : Activity ω Unit := do
  let w ← get
  let path := w.configPath
  tell (·.info ("Config file: " ++ (if w.files.exist path then path else "(none)")))
  tell (·.line "")
  let file := (w.files.text? path).elim [] SettingValue.ofFile
  let rows := Setting.catalog.map fun st => [st.key, shownSetting s st, s.source file st.key]
  tell (·.write (Console.Table.text ⟨["Key", "Value", "Source"], rows⟩))
  let defects := s.preferences.defects
  if !defects.isEmpty then
    tell (·.line "")
    tell fun c => defects.foldl (fun c d => c.warning d.message) c

/-- Writes the configuration file. -/
def initConfig (s : Settings) (p : Parsed) : Activity ω Unit := do
  let w ← get
  let path := w.configPath
  let replacing := w.files.exist path
  if replacing && !p.bool "force" then throw (.configExists path)
  let content := s.render
  if p.bool "dry-run" then tell (·.rehearse ("Would write " ++ path ++ ":"))
  else
    lift (.file ("create " ++ Path.directory path)) (w.files.makeDirectory (Path.directory path))
    if w.files.isDirectory path then
      throw (.file ("write " ++ path) ⟨"open", path, .isDirectory⟩)
    set { w with files := w.files.put path (.text content) }
    tell (if replacing then (·.warning ("Replaced " ++ path)) else (·.success ("Wrote " ++ path)))
  tell (·.write ("\n" ++ content))

/-- Opens the configuration file in an editor. -/
def editConfig (p : Parsed) : Activity ω Unit := do
  let w ← get
  let path := w.configPath
  match Settings.editor? w.env with
  | none | some [] => throw .noEditor
  | some (program :: args) =>
    if !w.files.exist path then throw (.configMissing path)
    else if p.bool "dry-run" then
      tell (·.rehearse ("Would open " ++ path ++ " with " ++ " ".intercalate (program :: args)))
    else
      match w.programs.run (program :: args ++ [path]) with
      | some reason => throw (.editor program reason)
      | none => return

/-! ## The server -/

/-- The path of the file that names the process of the server. -/
def pidPath (s : Settings) : String := Path.join (s.getText "state_dir") "rq-serve.pid"

/-- The path of the server's log. -/
def logPath (s : Settings) : String := Path.join (s.getText "state_dir") "rq-serve.log"

/-- The file that names the process of the server. -/
def pidFile (w : World ω) (path : String) : PidFile := ⟨w.files.text? path⟩

/-- Writes or removes the file that names the process of the server. -/
def keepPidFile (path : String) (f : PidFile) : Activity ω Unit :=
  modify fun w =>
    { w with
      files := match f.content with
        | some text => w.files.put path (.text text)
        | none => w.files.erase path }

/-- Runs the server until it is stopped. A port that there is not ends it at once. -/
def serve (s : Settings) : Activity ω Unit := do
  let t ← openStore s
  keepStore s t
  let w ← get
  let path := pidPath s
  lift (.file "create state directory") (w.files.makeDirectory (Path.directory path))
  let f ← lift (.pidFile path) ((pidFile w path).acquire w.programs.alive w.pid)
  keepPidFile path f
  let port := s.getInt "serve.port"
  tell (·.info ("Serving API at http://localhost:" ++ Text.ofInt port ++
    "/api/v1 (metrics at /metrics)"))
  keepPidFile path ((f.release w.pid).toOption.getD f)
  if 0 ≤ port ∧ port ≤ 65535 then tell (·.success "Server stopped")
  else throw (.badPort port)

/-- Starts the server in the background. -/
def startServer (s : Settings) (p : Parsed) : Activity ω Unit := do
  let w ← get
  let log := logPath s
  let port := Text.ofInt (s.getInt "serve.port")
  match (pidFile w (pidPath s)).running w.programs.alive with
  | (pid, true) => throw (.running pid)
  | (_, false) =>
    if p.bool "dry-run" then
      tell (·.rehearse ("Would start " ++ w.executable ++ " serve --port " ++ port ++ " (log: " ++
        log ++ ")"))
    else
      lift (.file "create state directory") (w.files.makeDirectory (Path.directory log))
      let pid ← lift .start (w.programs.start [w.executable, "serve", "--port", port])
      tell (·.success ("Server started (pid " ++ Text.ofInt pid ++ "), logging to " ++ log))

/-- Stops the server in the background. -/
def stopServer (s : Settings) (p : Parsed) : Activity ω Unit := do
  let w ← get
  let path := pidPath s
  let f := pidFile w path
  match f.running w.programs.alive with
  | (_, false) => throw (.pidFile path .notRunning)
  | (pid, true) =>
    if p.bool "dry-run" then
      tell (·.rehearse ("Would stop server (pid " ++ Text.ofInt pid ++ ")"))
    else
      let stopped := f.stop w.programs.alive w.programs.stop
      let f ← lift (.stop path) stopped.result
      keepPidFile path f
      let pid := Text.ofInt stopped.pid
      if stopped.killed then
        tell (·.warning ("Server did not exit within 5s and was killed (pid " ++ pid ++ ")"))
      else tell (·.success ("Server stopped (pid " ++ pid ++ ")"))

/-- Shows whether the server runs. -/
def showServer (s : Settings) : Activity ω Unit := do
  let w ← get
  match (pidFile w (pidPath s)).running w.programs.alive with
  | (_, false) => tell (·.info "Server: not running")
  | (pid, true) =>
    tell (·.success ("Server running (pid " ++ Text.ofInt pid ++ ") on port " ++
      Text.ofInt (s.getInt "serve.port")))

/-! ## Reviewing -/

/-- What a command line asks to be reviewed. -/
def reviewRequest (p : Parsed) : ReviewRequest :=
  { project := p.text "project"
    batch := p.text "batch"
    id := p.args.head?.getD ""
    status := p.text "status"
    feedback := p.text "feedback"
    parts := p.texts "part"
    once := p.bool "once" }

/-- Who drafts feedback: somebody only when a key is known. -/
def drafter? (w : World ω) (s : Settings) : Option Drafter :=
  if s.getText "anthropic.api_key" = "" ∧ (w.env.lookup "ANTHROPIC_API_KEY").getD "" = "" then none
  else some w.drafter

/-- Reviews submissions. -/
def review [Http.Peer ω] (s : Settings) (p : Parsed) : Activity ω Unit := do
  let w ← get
  let drafter := if p.bool "draft" then drafter? w s else none
  if p.bool "draft" && drafter.isNone then throw .noDraftKey
  let plan : ReviewPlan := { request := reviewRequest p, preferences := s.preferences, drafter }
  let wire : Wire ω := ⟨Client.ofBase (s.getText "api.url"), w.peer⟩
  let (r, e) := Reviewer.run plan { terminal := w.terminal, desk := { remote := wire } }
  let desk := r.desk.settle
  set { w with terminal := r.terminal, peer := desk.remote.peer }
  match e with
  | some e => throw (.review e)
  | none => return

/-! ## The command line -/

/-- Runs a command. -/
def perform [Http.Peer ω] (c : Command) (s : Settings) (p : Parsed) : Activity ω Unit :=
  match c with
  | .version => tell (·.line versionText)
  | .mcp => do
    let t ← openStore s
    keepStore s t
  | .config | .configShow => showConfig s
  | .configInit => initConfig s p
  | .configEdit => editConfig p
  | .submissionList => listSubmissions s p
  | .submissionShow => showSubmission s (p.args.head?.getD "")
  | .submissionImport => importSubmissions s (p.args.head?.getD "")
  | .serve => serve s
  | .serveStart => startServer s p
  | .serveStop => stopServer s p
  | .serveStatus => showServer s
  | .review => review s p
  | .root | .help | .completion | .submission => pure ()

/-- Checks the arguments of a command and runs it. A command that is asked for help, or that does
nothing by itself, leaves it at that. -/
def execute [Http.Peer ω] (args : List String) : Activity ω Unit := do
  let (c, args) ← lift .unknownCommand (Command.find args)
  let p ← lift .flag (parse (Command.helpFlag :: c.flags) args)
  if p.bool "help" || !c.isRunnable then return
  tell fun console => { console with verbose := p.bool "verbose", dryRun := p.bool "dry-run" }
  let s := (← get).settings p
  if !c.arity.admits p.args.length then throw (.arity c.arity p.args.length)
  let missing := c.required.filter fun name => !p.isGiven name
  if !missing.isEmpty then throw (.missingFlags missing)
  perform c s p

/-- Runs a command line, and tells how it ended. -/
def run [Http.Peer ω] (args : List String) (w : World ω) : World ω × Option CliError :=
  match (execute args).run.run w with
  | (.ok _, w) => (w, none)
  | (.error e, w) => (w, some e)

end ReviewQueue.Cli
