import ReviewQueue.Settings.Catalog

/-! The configuration file as it is written: every setting with its help, and those that have no
value of their own commented out. -/

namespace ReviewQueue.Settings

/-- The line of a setting, and whether it is commented out. -/
def settingLine (s : Settings) (st : Setting) : String × Bool :=
  let (_, leaf) := Setting.splitKey st.key
  let value := s.get st.key
  if value.isEmpty && st.sample != "" then (leaf ++ ": " ++ st.sample, true)
  else (leaf ++ ": " ++ value.written, st.commented)

/-- Whether every setting of a section is commented out. -/
def sectionCommented (s : Settings) (sect : String) : Bool :=
  (Setting.catalog.filter fun st => (Setting.splitKey st.key).1 == sect).all fun st =>
    (s.settingLine st).2

/-- The line that opens a section, with the blank line before it. -/
def sectionHead (s : Settings) (sect : String) : List String :=
  if sect = "" then []
  else ["", (if s.sectionCommented sect then "# " else "") ++ sect ++ ":"]

/-- The lines of settings, where `current` is the section that was opened last. -/
def settingLines (s : Settings) (current : String) : List Setting → List String
  | [] => []
  | st :: rest =>
    let (sect, _) := Setting.splitKey st.key
    let indent := if sect = "" then "" else "  "
    let (text, commented) := s.settingLine st
    (if sect = current then [] else s.sectionHead sect) ++
      ["", indent ++ "# " ++ st.help, indent ++ (if commented then "# " else "") ++ text] ++
      settingLines s sect rest

/-- The text of the configuration file. -/
def render (s : Settings) : String :=
  let lines :=
    ["# rq configuration", "# See: rq config show (for effective values and sources)"] ++
      s.settingLines "" Setting.catalog
  String.join (lines.map (· ++ "\n"))

end ReviewQueue.Settings
