import ReviewQueue.Text.Numeral
import ReviewQueue.Text.Quoted

/-! JSON values and JSON texts.

A `Json` value keeps the spelling of its numbers, so that printing loses nothing. Records of this
library are written straight to text: `Json.object` and `Json.array` join the texts of their
parts, and `Json.string` escapes what may not stand in a string, together with the three characters
that a web page would take for markup. -/

namespace ReviewQueue

/-- A JSON value. Numbers are kept as they are spelled, members in the order they are written. -/
inductive Json where
  | null
  | bool (value : Bool)
  | number (spelling : List Char)
  | string (value : String)
  | array (items : List Json)
  | object (members : List (String × Json))
  deriving Inhabited

namespace Json

/-- One character as it stands between the quotes of a JSON string. -/
def escapeChar (c : Char) : List Char :=
  match c.toNat with
  | 0x22 => ['\\', '"']
  | 0x5C => ['\\', '\\']
  | 0x08 => ['\\', 'b']
  | 0x0C => ['\\', 'f']
  | 0x0A => ['\\', 'n']
  | 0x0D => ['\\', 'r']
  | 0x09 => ['\\', 't']
  | n =>
    if n < 0x20 ∨ n = 0x3C ∨ n = 0x3E ∨ n = 0x26 ∨ n = 0x2028 ∨ n = 0x2029 then
      '\\' :: 'u' :: Text.hex 4 n
    else [c]

/-- The text of a JSON string. -/
def stringText (s : String) : List Char :=
  '"' :: s.toList.flatMap escapeChar ++ ['"']

/-- The text of a JSON integer. -/
def intText (n : Int) : List Char :=
  Text.numeral n

/-- The text of a JSON truth value. -/
def boolText (b : Bool) : List Char :=
  if b then ['t', 'r', 'u', 'e'] else ['f', 'a', 'l', 's', 'e']

/-- The text of the JSON null. -/
def nullText : List Char := ['n', 'u', 'l', 'l']

/-- Texts joined by commas. -/
def commaJoin (items : List (List Char)) : List Char :=
  [','].intercalate items

/-- The text of a JSON array with the given item texts. -/
def arrayText (items : List (List Char)) : List Char :=
  '[' :: commaJoin items ++ [']']

/-- The text of one member. -/
def memberText (member : String × List Char) : List Char :=
  stringText member.1 ++ ':' :: member.2

/-- The text of a JSON object with the given members. -/
def objectText (members : List (String × List Char)) : List Char :=
  '\x7b' :: commaJoin (members.map memberText) ++ ['\x7d']

/-- The text of an optional value: null when it is missing. -/
def optionText (f : α → List Char) : Option α → List Char
  | none => nullText
  | some a => f a

/-- The text of a list that may be missing. -/
def listText (f : α → List Char) : Option (List α) → List Char :=
  optionText fun items => arrayText (items.map f)

mutual

/-- The text of a value, without blanks. -/
def text : Json → List Char
  | .null => nullText
  | .bool b => boolText b
  | .number spelling => spelling
  | .string s => stringText s
  | .array items => arrayText (itemTexts items)
  | .object members => objectText (memberTexts members)

/-- The texts of the items of an array. -/
def itemTexts : List Json → List (List Char)
  | [] => []
  | v :: rest => text v :: itemTexts rest

/-- The members of an object, each value as its text. -/
def memberTexts : List (String × Json) → List (String × List Char)
  | [] => []
  | (k, v) :: rest => (k, text v) :: memberTexts rest

end

mutual

/-- How many arrays and objects of a value stand inside one another. -/
def height : Json → Nat
  | .array items => itemsHeight items + 1
  | .object members => membersHeight members + 1
  | _ => 0

/-- The height of the highest item. -/
def itemsHeight : List Json → Nat
  | [] => 0
  | v :: rest => max (height v) (itemsHeight rest)

/-- The height of the highest value of a member. -/
def membersHeight : List (String × Json) → Nat
  | [] => 0
  | (_, v) :: rest => max (height v) (membersHeight rest)

end

end Json
end ReviewQueue
