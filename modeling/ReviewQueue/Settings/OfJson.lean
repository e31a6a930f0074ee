import ReviewQueue.Json.Reader
import ReviewQueue.Settings.Value

/-! Values of settings that are given in JSON. -/

namespace ReviewQueue.SettingValue

/-- A number: an integer when it is integral and fits a word, and otherwise a double. -/
def ofSpelling (spelling : List Char) : SettingValue :=
  match Text.readNumeral spelling with
  | .ok n => .int n
  | .error _ =>
    match Binary64.ofSpelling? spelling with
    | none => .null
    | some x =>
      let n := x.truncate
      if fitsWord n && Binary64.text Binary64.wire x == Text.numeral n then .int n else .float x

mutual

/-- The value of a JSON value; the entries of a table are in order of their names. -/
def ofJson : Json → SettingValue
  | .null => .null
  | .bool b => .bool b
  | .number spelling => ofSpelling spelling
  | .string s => .text s
  | .array items => .list (ofItems items)
  | .object members => .table ((ofMembers members).mergeSort fun x y => decide (x.1 ≤ y.1))

/-- The values of the items of an array. -/
def ofItems : List Json → List SettingValue
  | [] => []
  | v :: rest => ofJson v :: ofItems rest

/-- The values of the members of an object. -/
def ofMembers : List (String × Json) → List (String × SettingValue)
  | [] => []
  | (name, v) :: rest => (name, ofJson v) :: ofMembers rest

end

end ReviewQueue.SettingValue
