import ReviewQueue.Json.Reader
import ReviewQueue.Number.Binary64

/-! The canonical text of a JSON value.

Members are in the order of their names, of members with one name only the last stands, and numbers
are doubles in their shortest spelling. Values that differ in nothing else have the same canonical
text. -/

namespace ReviewQueue.Json

/-- The canonical spelling of a number. -/
def canonicalNumber (spelling : List Char) : List Char :=
  match Binary64.ofSpelling? spelling with
  | some x => Binary64.text Binary64.wire x
  | none => spelling

/-- Members in the order of their names, of each name the last. -/
def sortMembers (members : List (String × List Char)) : List (String × List Char) :=
  let last := members.foldl (fun kept m => kept.filter (·.1 != m.1) ++ [m]) []
  last.mergeSort fun a b => decide (a.1 ≤ b.1)

mutual

/-- The canonical text of a value. -/
def canonical : Json → List Char
  | .null => nullText
  | .bool b => boolText b
  | .number spelling => canonicalNumber spelling
  | .string s => stringText s
  | .array items => arrayText (canonicalItems items)
  | .object members => objectText (sortMembers (canonicalMembers members))

/-- The canonical texts of items. -/
def canonicalItems : List Json → List (List Char)
  | [] => []
  | v :: rest => canonical v :: canonicalItems rest

/-- The members, each value as its canonical text. -/
def canonicalMembers : List (String × Json) → List (String × List Char)
  | [] => []
  | (k, v) :: rest => (k, canonical v) :: canonicalMembers rest

end

end ReviewQueue.Json
