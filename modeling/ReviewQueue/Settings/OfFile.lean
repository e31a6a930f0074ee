import ReviewQueue.Json.Reader
import ReviewQueue.Settings.Catalog
import ReviewQueue.Yaml.Decode

/-! The configuration file as it is read.

The names of settings do not depend on case. A file that is no mapping, or that is malformed, is as
good as empty. -/

namespace ReviewQueue.SettingValue

/-- The value of a scalar. -/
def ofMeaning : Yaml.Meaning → SettingValue
  | .null => .null
  | .bool b => .bool b
  | .int n => .int n
  | .float x => .float x
  | .text words => .text words

/-- The value of a node, up to a depth. -/
def ofYaml : Nat → Yaml → Except YamlError SettingValue
  | 0, _ => .error {}
  | depth + 1, node =>
    match node with
    | .scalar plain tag words => (Yaml.meaning plain tag words).map ofMeaning
    | .sequence items => return .list (← items.mapM (ofYaml depth))
    | .mapping entries => do
      let entries ← Yaml.members (.mapping entries)
      let entries ← entries.mapM fun (name, value) => do
        return (name.toLower, ← ofYaml depth value)
      return .table (entries.mergeSort fun x y => decide (x.1 ≤ y.1))
    | _ => .error {}

/-- The settings of a file, by their names. -/
def ofFile (text : String) : List (String × SettingValue) :=
  match Yaml.read text >>= ofYaml (text.length + 1) with
  | .ok (.table entries) => entries
  | _ => []

mutual

/-- The value of a JSON value, whose numbers are doubles. -/
def ofJsonFile : Json → SettingValue
  | .null => .null
  | .bool b => .bool b
  | .number spelling => ((Binary64.ofSpelling? spelling).map .float).getD .null
  | .string s => .text s
  | .array items => .list (ofJsonItems items)
  | .object members => .table ((ofJsonMembers members).mergeSort fun x y => decide (x.1 ≤ y.1))

/-- The values of items. -/
def ofJsonItems : List Json → List SettingValue
  | [] => []
  | v :: rest => ofJsonFile v :: ofJsonItems rest

/-- The values of members, whose names are in lower case. -/
def ofJsonMembers : List (String × Json) → List (String × SettingValue)
  | [] => []
  | (name, v) :: rest => (name.toLower, ofJsonFile v) :: ofJsonMembers rest

end

/-- The settings of a file that is named, by what its name ends in. -/
def ofNamedFile (extension content : String) : List (String × SettingValue) :=
  match extension with
  | "yaml" | "yml" => ofFile content
  | "json" =>
    match (Json.read content.toList).map ofJsonFile with
    | some (.table entries) => entries
    | _ => []
  | _ => []

end ReviewQueue.SettingValue

namespace ReviewQueue.Settings

/-- The endings under which a configuration file is looked for, in order. -/
def endings : List String :=
  [".json", ".toml", ".yaml", ".yml", ".properties", ".props", ".prop", ".hcl", ".tfvars",
   ".dotenv", ".env", ".ini", ""]

/-- The paths at which a configuration file is looked for. -/
def candidates (home : String) : List String :=
  endings.map fun ending => configDir home ++ "/config" ++ ending

end ReviewQueue.Settings
