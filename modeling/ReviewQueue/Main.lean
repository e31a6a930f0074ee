import ReviewQueue.Cli.Run
import ReviewQueue.Server.Running
import ReviewQueue.Store.Saved
import Std.Time.DateTime.Timestamp

/-! The program.

Files, environment and clock are read first, the command line is run on them, and what it changed is
written back. The service that `review` talks to works on the same database. A question is answered
by running again with one more line: a run depends on its input only, so it says the same up to
there. -/

namespace ReviewQueue.Program

open Cli

abbrev LocalWorld := World RunningService

/-- The text of a file, none when it cannot be read. -/
def readText? (path : String) : IO (Option String) := do
  try
    let bytes ← IO.FS.readBinFile path
    return some (Text.lossy bytes.toList)
  catch _ => return none

/-- The content of a text: a store that was saved, or the text itself. -/
def contentOf (text : String) : FileContent :=
  match Store.ofSaved? text with
  | some store => .database store
  | none => .text text

/-- The text in which a content is written. -/
def textOf : FileContent → String
  | .text content => content
  | .database store => store.saved

/-- Reads those files that there are. -/
def readFiles (paths : List String) : IO Files := do
  let mut files : Files := []
  for path in paths do
    match ← readText? path with
    | some text => files := files.put path (contentOf text)
    | none => pure ()
  return files

/-- The variables that have a say. -/
def readEnv : IO (List (String × String)) := do
  let names := Setting.catalog.map (Setting.envName ·.key) ++
    ["VISUAL", "EDITOR", "ANTHROPIC_API_KEY", "HOME"]
  let mut env := []
  for name in names do
    match ← IO.getEnv name with
    | some value => env := (name, value) :: env
    | none => pure ()
  return env

/-- The flags and the arguments of a command line, as far as they can be read. -/
def parsed (args : List String) : Parsed :=
  match Command.find args with
  | .ok (c, args) => (parse c.flags args).toOption.getD {}
  | .error _ => {}

/-- The number of this process. -/
def ownPid : IO Int := do
  let stat ← readText? "/proc/self/stat"
  return (Text.toInt? (.ofList ((stat.getD "").toList.takeWhile (· != ' ')))).getD 0

/-- What a command line works on. -/
def readWorld (args : List String) : IO LocalWorld := do
  let env ← readEnv
  let home := (env.lookup "HOME").getD ""
  let p := parsed args
  let nanos := (← Std.Time.Timestamp.now).toNanosecondsSinceUnixEpoch.val.toNat
  let seed := (← IO.getRandomBytes 10).toList.foldl (fun n b => n * 256 + b.toNat) 0
  let clock := Clock.ofStart nanos seed
  let base : LocalWorld :=
    { home, env, clock
      peer := ⟨{}, clock⟩
      pid := ← ownPid
      files := ← readFiles (Settings.candidates home ++ p.args ++ [p.text "config"]) }
  let s := base.settings p
  let more ← readFiles [s.getText "db_path", pidPath s]
  let files := more ++ base.files
  let store := match files.find? (s.getText "db_path") with
    | some (.database store) => store
    | _ => {}
  let owner := (pidFile { base with files } (pidPath s)).read.toOption.getD 0
  let isAlive := (← readText? ("/proc/" ++ Text.ofInt owner ++ "/stat")).isSome
  return { base with
    files
    peer := ⟨{ store }, clock⟩
    programs :=
      { alive := fun pid => pid == owner && isAlive
        run := fun _ => some "other programs cannot be run"
        start := fun _ => .error "other programs cannot be run" } }

/-- Writes what changed. -/
def writeFiles (before after : Files) : IO Unit := do
  for (path, content) in after do
    if before.find? path != some content then
      IO.FS.createDirAll (Path.directory path)
      IO.FS.writeFile path (textOf content)
  for (path, _) in before do
    if (after.find? path).isNone then IO.FS.removeFile path

/-- Runs a command line on the lines that were typed so far, of whose output `shown` characters are
known, and asks for more lines as long as there are questions. -/
partial def converse (args : List String) (w : LocalWorld) (lines : List String)
    (shown : Nat × Nat) : IO (LocalWorld × Option CliError) := do
  let (after, e) := run args { w with terminal := { input := lines } }
  let c := after.terminal.console
  IO.print (String.ofList (c.out.toList.drop shown.1))
  IO.eprint (String.ofList (c.err.toList.drop shown.2))
  (← IO.getStdout).flush
  if after.terminal.starved then
    let line ← (← IO.getStdin).getLine
    if line != "" then
      let line : String := .ofList (line.toList.reverse.dropWhile (· == '\n')).reverse
      return ← converse args w (lines ++ [line]) (c.out.length, c.err.length)
  return (after, e)

/-- Runs a command line. -/
def start (args : List String) : IO UInt32 := do
  let w ← readWorld args
  let (after, e) ← converse args w [] (0, 0)
  let database := (w.settings (parsed args)).getText "db_path"
  let served := after.peer.service.store
  let files :=
    if served = w.peer.service.store then after.files
    else after.files.put database (.database served)
  writeFiles w.files files
  match e with
  | some e => do
    IO.eprintln ("Error: " ++ e.message)
    return 1
  | none => return 0

end ReviewQueue.Program

def main (args : List String) : IO UInt32 :=
  ReviewQueue.Program.start args
