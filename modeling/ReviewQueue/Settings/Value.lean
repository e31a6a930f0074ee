import ReviewQueue.Number.Binary64
import ReviewQueue.Number.Literal
import ReviewQueue.Text.Blank
import ReviewQueue.Text.Quoted

/-! Values of settings, how they are shown, and how they are read as texts, numbers and lists. -/

namespace ReviewQueue

/-- The value of a setting. -/
inductive SettingValue where
  | null
  | bool (value : Bool)
  | int (value : Int)
  | float (value : Binary64)
  | text (value : String)
  | list (items : List SettingValue)
  | table (entries : List (String × SettingValue))
  deriving Inhabited

namespace SettingValue

/-- A list of texts. -/
def texts (items : List String) : SettingValue :=
  .list (items.map .text)

mutual

/-- A value as it is shown: a list in brackets, its items divided by blanks. -/
def shown : SettingValue → String
  | .null => "<nil>"
  | .bool b => if b then "true" else "false"
  | .int n => Text.ofInt n
  | .float x => .ofList (Binary64.text Binary64.general x)
  | .text s => s
  | .list items => "[" ++ " ".intercalate (shownItems items) ++ "]"
  | .table entries => "map[" ++ " ".intercalate (shownEntries entries) ++ "]"

/-- The items of a list, each as it is shown. -/
def shownItems : List SettingValue → List String
  | [] => []
  | v :: rest => v.shown :: shownItems rest

/-- The entries of a table, each as it is shown. -/
def shownEntries : List (String × SettingValue) → List String
  | [] => []
  | (k, v) :: rest => (k ++ ":" ++ v.shown) :: shownEntries rest

end

/-- Whether there is nothing in a value. -/
def isEmpty : SettingValue → Bool
  | .null => true
  | .text s => s == ""
  | .list items => items.isEmpty
  | _ => false

/-- A value as it is written in a configuration file: texts in quotes, lists in brackets with
commas. -/
def written : SettingValue → String
  | .text s => Text.quoted s
  | .list items => "[" ++ ", ".intercalate (items.map shown) ++ "]"
  | v => v.shown

/-- A value read as a text; a list or a table is none. -/
def toText? : SettingValue → Option String
  | .null => some ""
  | .bool b => some (if b then "true" else "false")
  | .int n => some (Text.ofInt n)
  | .float x => some (.ofList (Binary64.plainText x))
  | .text s => some s
  | .list _ => none
  | .table _ => none

/-- A value read as a text, empty when it is none. -/
def toText (v : SettingValue) : String :=
  v.toText?.getD ""

/-- A numeral without a fraction that consists of zeros. -/
def dropZeroFraction (s : List Char) : List Char :=
  match s.reverse.dropWhile (· == '0') with
  | '.' :: whole => if s.getLast? = some '0' then whole.reverse else s
  | _ => s

/-- A value read as an integer, zero when it is none. -/
def toInt : SettingValue → Int
  | .bool b => if b then 1 else 0
  | .int n => n
  | .float x => x.truncate
  | .text s => (Literal.readDivided? (dropZeroFraction s.toList)).getD 0
  | _ => 0

/-- A value read as a list of texts: a text is cut at blanks, and any other single value is a list
of one. -/
def toTexts : SettingValue → List String
  | .null => []
  | .text s => Text.words s
  | .list items => items.map toText
  | v => v.toText?.toList

end SettingValue
end ReviewQueue
