import ReviewQueue.Number.Binary64
import ReviewQueue.Number.Literal
import ReviewQueue.Text.Base64
import ReviewQueue.Text.Utf8

/-! YAML documents as trees.

A scalar keeps its text, and whether it was written plainly: a plain scalar may be a null, a truth
value or a number, while a quoted one is always a text. -/

namespace ReviewQueue

/-- A node of a YAML document. -/
inductive Yaml where
  | scalar (plain : Bool) (tag : String) (text : String)
  | sequence (items : List Yaml)
  | mapping (entries : List (Yaml × Yaml))
  /-- A node under a name. -/
  | anchored (name : String) (node : Yaml)
  /-- The node that has a name. -/
  | alias (name : String)
  deriving Inhabited

/-- A text that is no YAML document of the kind that was asked for. -/
structure YamlError where
  deriving DecidableEq, Repr

/-- The wording of a YAML error. -/
def YamlError.message (_ : YamlError) : String := "<yaml error>"

namespace Yaml

/-- The node of a place where nothing is written. -/
def absent : Yaml := .scalar true "" ""

/-- What a scalar stands for. -/
inductive Meaning where
  | null
  | bool (value : Bool)
  | int (value : Int)
  | float (value : Binary64)
  | text (value : String)
  deriving DecidableEq, Repr

/-- The plain words that stand for nothing. -/
def nullWords : List String := ["", "~", "null", "Null", "NULL"]

/-- Reads the decimals and the exponent of a number; `digits` tells whether there were digits
before. -/
def isFloatTail (digits : Bool) (s : List Char) : Bool :=
  let (fraction, rest) : List Char × List Char :=
    match s with
    | '.' :: r => (r.takeWhile Text.isDigit, r.dropWhile Text.isDigit)
    | _ => ([], s)
  (digits || !fraction.isEmpty) &&
    match rest with
    | [] => true
    | e :: rest =>
      (e == 'e' || e == 'E') &&
        (let ds := (Literal.splitSign rest).2
        !ds.isEmpty && ds.all Text.isDigit)

/-- Whether a text is a decimal number. -/
def isFloat (s : List Char) : Bool :=
  let rest := (Literal.splitSign s).2
  isFloatTail (rest.head?.any Text.isDigit) (rest.dropWhile Text.isDigit)

/-- The value of a decimal number. A point needs no digits before or after it. -/
def floatOf (s : List Char) : Binary64 :=
  let (negative, rest) := Literal.splitSign s
  let whole := rest.takeWhile Text.isDigit
  let after := rest.dropWhile Text.isDigit
  let fraction := match after with
    | '.' :: r => r.takeWhile Text.isDigit
    | _ => []
  let exponent := match after.dropWhile (fun c => c != 'e' && c != 'E') with
    | _ :: e =>
      let (negative, ds) := Literal.splitSign e
      if negative then -(Text.digitsValue ds : Int) else Text.digitsValue ds
    | [] => 0
  Binary64.ofDecimal negative (Text.digitsValue (whole ++ fraction)) (exponent - fraction.length)

/-- What a plain number is. Underscores may divide its digits, unless it starts with a point. -/
def number? (s : List Char) : Option Meaning :=
  let digits := if s.head? = some '.' then s else s.filter (· != '_')
  match Literal.read? digits with
  | some n => some (.int n)
  | none => if isFloat digits then some (.float (floatOf digits)) else none

/-- Whether a plain text may be a number by its first character. -/
def startsNumber : List Char → Bool
  | c :: _ => Text.isDigit c || c == '+' || c == '-' || c == '.'
  | [] => false

/-- What a plain scalar without a tag stands for. -/
def plainMeaning (text : String) : Meaning :=
  if nullWords.contains text then .null
  else if ["true", "True", "TRUE"].contains text then .bool true
  else if ["false", "False", "FALSE"].contains text then .bool false
  else if [".inf", ".Inf", ".INF", "+.inf", "+.Inf", "+.INF"].contains text then
    .float (.infinite false)
  else if ["-.inf", "-.Inf", "-.INF"].contains text then .float (.infinite true)
  else if startsNumber text.toList then (number? text.toList).getD (.text text)
  else .text text

/-- What a scalar stands for. Of the known tags, that of texts takes any scalar as it is written,
and the others only what they name, quoted or not. -/
def meaning (plain : Bool) (tag text : String) : Except YamlError Meaning :=
  match tag, plainMeaning text with
  | "!!str", _ => .ok (.text text)
  | "!!null", .null => .ok .null
  | "!!null", _ => .error {}
  | "!!bool", .bool b => .ok (.bool b)
  | "!!bool", _ => .error {}
  | "!!int", .int n => .ok (.int n)
  | "!!int", _ => .error {}
  | "!!float", .float x => .ok (.float x)
  | "!!float", .int n => .ok (.float (Binary64.ofDecimal (n < 0) n.natAbs 0))
  | "!!float", _ => .error {}
  | "!!binary", _ =>
    match Text.ofBase64? text.toList with
    | some bytes => .ok (.text (Text.lossy bytes))
    | none => .error {}
  | "", m => .ok (if plain then m else .text text)
  | "!", m => .ok (if plain then m else .text text)
  | _, _ => .ok (.text text)

/-- Whether a node stands for nothing. -/
def isNull : Yaml → Bool
  | .scalar plain tag text =>
    match meaning plain tag text with
    | .ok .null => true
    | _ => false
  | .anchored _ node => node.isNull
  | _ => false

end Yaml
end ReviewQueue
