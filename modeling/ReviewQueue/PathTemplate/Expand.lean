import ReviewQueue.PathTemplate.Basic
import ReviewQueue.Text.Utf8

/-! Expansion of a template with values.

A character that its operator does not allow is written as the bytes of its code point, high end
first and without zero bytes, each as a percent escape. -/

namespace ReviewQueue.PathTemplate

/-- The values of a template's variables. -/
abbrev Values := List (String × String)

/-- The value of a variable; an empty value counts as none. -/
def lookup? (values : Values) (name : List Char) : Option String :=
  match (values.find? fun p => p.1.toList == name).map (·.2) with
  | some "" => none
  | v => v

/-- A hexadecimal digit in upper case. -/
def upperHex (d : Nat) : Char :=
  if d < 10 then Char.ofNat (48 + d) else Char.ofNat (55 + d)

/-- A percent escape. -/
def escapeByte (b : Nat) : List Char :=
  ['%', upperHex (b / 16), upperHex (b % 16)]

/-- The bytes of a code point, high end first, without zero bytes. -/
def codeBytes (c : Char) : List Nat :=
  let n := c.toNat
  [n / 65536, n / 256 % 256, n % 256].filter (· != 0)

/-- One character of a value. -/
def escapeChar (op : Operator) (c : Char) : List Char :=
  if op.allows c then [c] else (codeBytes c).flatMap escapeByte

/-- Escapes the bytes of a value, from position `pos`; the position of the first character that is
not well encoded is the error. -/
def escapeFrom (op : Operator) (pos : Nat) : List (Option Char) → Except Nat (List Char)
  | [] => .ok []
  | none :: _ => .error pos
  | some c :: rest =>
    if c = Text.replacement then .error pos
    else (escapeFrom op (pos + c.utf8Size) rest).map (escapeChar op c ++ ·)

/-- The characters of a value, cut to the limit of its variable in bytes. -/
def limited (v : Variable) (value : String) : List (Option Char) :=
  if v.limit = 0 then value.toList.map some
  else Text.runes ((Text.toBytes value.toList).take v.limit)

/-- A value as its expression writes it. -/
def expandVariable (op : Operator) (v : Variable) (value : String) : Except Nat (List Char) :=
  (escapeFrom op 0 (limited v value)).map fun text =>
    if op.isNamed then v.name ++ '=' :: text else text

/-- The variables of an expression that have a value; `first` says that none was written yet. -/
def expandVariables (op : Operator) (values : Values) (first : Bool) :
    List Variable → Except Nat (List Char)
  | [] => .ok []
  | v :: rest =>
    match lookup? values v.name with
    | none => expandVariables op values first rest
    | some value => do
      let text ← expandVariable op v value
      let more ← expandVariables op values false rest
      return (if first then op.opening else op.separator) ++ text ++ more

/-- A piece of a template. -/
def expandSegment (values : Values) : Segment → Except Nat (List Char)
  | .literal text => .ok text
  | .expression op vars => expandVariables op values true vars

/-- Pieces of a template in order. -/
def expandSegments (values : Values) : List Segment → Except Nat (List Char)
  | [] => .ok []
  | s :: rest => do
    let text ← expandSegment values s
    let more ← expandSegments values rest
    return text ++ more

/-- Expands a template. The error is the position in a value where its encoding is broken. -/
def expand (t : PathTemplate) (values : Values) : Except Nat (List Char) :=
  expandSegments values t.segments

end ReviewQueue.PathTemplate
