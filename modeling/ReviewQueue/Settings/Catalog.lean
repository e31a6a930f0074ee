import ReviewQueue.Review.Preferences
import ReviewQueue.Settings.Value

/-! The settings that there are, and where their values come from.

A value comes from a flag, else from the environment, else from the configuration file, else it is
the default. A dotted key is nested under its section in the file. -/

namespace ReviewQueue

/-- A setting. -/
structure Setting where
  key : String
  help : String
  /-- What is shown, commented out, when there is no value. -/
  sample : String := ""
  /-- Whether the setting is always shown commented out. -/
  commented : Bool := false
  secret : Bool := false
  deriving DecidableEq, Repr

namespace Setting

/-- The model that drafts feedback when no other is configured. -/
def defaultModel : String := "claude-sonnet-4-5"

/-- All settings, in the order in which they are shown. -/
def catalog : List Setting :=
  [{ key := "state_dir", help := "State/data directory (default: ~/.config/rq)"
     commented := true },
   { key := "db_path", help := "SQLite database path (default: ~/.config/rq/rq.db)"
     commented := true },
   { key := "api.url", help := "REST API the review command talks to" },
   { key := "serve.port", help := "Port for rq serve" },
   { key := "review.path_template"
     help :=
       "Navigation path; \x7bprojectId\x7d, \x7bbatchId\x7d and \x7bsubmissionId\x7d " ++
         "are filled in" },
   { key := "review.valid_statuses"
     help := "Status options offered for whole-submission review (empty keeps all)"
     sample := "[APPROVED, REJECTED]" },
   { key := "review.success_message", help := "Message shown after a verdict is saved"
     sample := Text.quoted Preferences.defaultSuccessMessage },
   { key := "review.read_only_statuses"
     help := "Submissions already in one of these statuses open read-only"
     sample := "[APPROVED]" },
   { key := "anthropic.api_key", help := "Key for feedback drafting (rq review --draft)"
     sample := "sk-ant-...", secret := true },
   { key := "anthropic.model", help := "Model used for drafts"
     sample := Text.quoted defaultModel }]

/-- The environment variable that overrides a key. -/
def envName (key : String) : String :=
  "RQ_" ++ Text.upper (.ofList (key.toList.map fun c => if c = '.' then '_' else c))

/-- A key as its section, empty when it has none, and its name in it: they are divided at the last
point. -/
def splitKey (key : String) : String × String :=
  match key.toList.reverse.dropWhile (· != '.') with
  | _ :: before =>
    (.ofList before.reverse, .ofList (key.toList.drop (before.length + 1)))
  | [] => ("", key)

end Setting

/-- Where values come from, in the order of precedence. -/
structure Settings where
  /-- Values that were given directly. -/
  given : List (String × SettingValue) := []
  env : List (String × String) := []
  /-- The configuration file, with its names in lower case. -/
  file : List (String × SettingValue) := []
  defaults : List (String × SettingValue) := []
  deriving Inhabited

namespace Settings

/-- A value that is there. -/
def present? : Option SettingValue → Option SettingValue
  | some .null => none
  | v => v

/-- The value of a variable that is set and not empty. -/
def envValue? (s : Settings) (key : String) : Option String :=
  (s.env.lookup (Setting.envName key)).filter (· != "")

/-- The value of a key in a file: under the whole key, or nested in its section. -/
def inFile? (file : List (String × SettingValue)) (key : String) : Option SettingValue :=
  let (sect, leaf) := Setting.splitKey key
  match present? (file.lookup key), file.lookup sect with
  | some v, _ => some v
  | none, some (.table entries) => if sect = "" then none else present? (entries.lookup leaf)
  | none, _ => none

/-- Whether the section of a key is taken by a value that has no entries. -/
def hidesKey (file : List (String × SettingValue)) (key : String) : Bool :=
  let (sect, _) := Setting.splitKey key
  match file.lookup sect with
  | some .null => false
  | some (.table _) => false
  | some _ => sect != ""
  | none => false

/-- Whether the environment takes the whole section of a key. -/
def envHidesKey (s : Settings) (key : String) : Bool :=
  let (sect, _) := Setting.splitKey key
  sect != "" && (s.envValue? sect).isSome

/-- The value of a key. -/
def get (s : Settings) (key : String) : SettingValue :=
  match present? (s.given.lookup key), s.envValue? key with
  | some v, _ => v
  | none, some text => .text text
  | none, none =>
    if s.envHidesKey key then .null
    else
      match inFile? s.file key with
      | some v => v
      | none => if hidesKey s.file key then .null else (s.defaults.lookup key).getD .null

def getText (s : Settings) (key : String) : String := (s.get key).toText

def getInt (s : Settings) (key : String) : Int := (s.get key).toInt

def getTexts (s : Settings) (key : String) : List String := (s.get key).toTexts

/-- The directory of the configuration under a home directory. -/
def configDir (home : String) : String := home ++ "/.config/rq"

/-- The default values under a home directory. -/
def standard (home : String) : List (String × SettingValue) :=
  [("state_dir", .text (configDir home)),
   ("db_path", .text (configDir home ++ "/rq.db")),
   ("api.url", .text "http://localhost:8080"),
   ("serve.port", .int 8080),
   ("review.path_template", .text Route.defaultTemplate),
   ("review.valid_statuses", .list []),
   ("review.success_message", .text ""),
   ("review.read_only_statuses", .list []),
   ("anthropic.api_key", .text ""),
   ("anthropic.model", .text "")]

/-- The reviewer's settings. -/
def preferences (s : Settings) : Preferences :=
  Preferences.ofSettings (s.getText "review.path_template") (s.getText "review.success_message")
    (s.getTexts "review.valid_statuses") (s.getTexts "review.read_only_statuses")

/-- Where the value of a key comes from, given the file alone. -/
def source (s : Settings) (file : List (String × SettingValue)) (key : String) : String :=
  let name := Setting.envName key
  if (s.env.lookup name).isSome then "env " ++ name
  else if (inFile? file key).isSome then "file"
  else "default"

/-- The command that opens an editor: the words of the first variable that has any. -/
def editor? (env : List (String × String)) : Option (List String) :=
  ["VISUAL", "EDITOR"].findSome? fun name =>
    match Text.words ((env.lookup name).getD "") with
    | [] => none
    | ws => some ws

/-- What is said when there is no editor. -/
def noEditor : String :=
  "$EDITOR is not set; export VISUAL or EDITOR (e.g. export EDITOR=vim)"

end Settings
end ReviewQueue
