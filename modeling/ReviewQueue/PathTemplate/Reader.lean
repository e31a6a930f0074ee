import ReviewQueue.PathTemplate.Basic
import ReviewQueue.Text.Printable
import ReviewQueue.Text.Utf8

/-! The reader of path templates.

It takes one character at a time. A fault is reported with the text that was consumed up to it and
a mark that tells whether the offending character is part of that text. -/

namespace ReviewQueue.PathTemplate

/-- What can be wrong with a template. -/
inductive Fault where
  | incompleteExpression
  | invalidEncoding
  | incompleteEscape
  | unacceptableCharacter
  | unimplementedOperator
  | unacceptableName
  | badLimit
  | unknownModifier
  deriving DecidableEq, Repr

/-- The wording of a fault. -/
def Fault.message : Fault → String
  | .incompleteExpression => "incomplete expression"
  | .invalidEncoding => "invalid UTF-8 sequence"
  | .incompleteEscape => "incomplete pct-encodeed"
  | .unacceptableCharacter => "unacceptable character (hint: use %XX encoding)"
  | .unimplementedOperator => "unimplemented operator (op-reserved)"
  | .unacceptableName => "unacceptable variable name"
  | .badLimit => "max-length must be (0, 9999]"
  | .unknownModifier => "unrecognized value modifier"

/-- A fault with the text consumed up to it; `included` says that the text ends with the offending
character. -/
structure ReadError where
  fault : Fault
  consumed : List Char
  included : Bool
  deriving DecidableEq, Repr

/-- The wording of a read error. -/
def ReadError.message (e : ReadError) : String :=
  e.fault.message ++ ": " ++ .ofList e.consumed ++ (if e.included then "|" else "_")

/-- What the reader expects next. -/
inductive Mode where
  /-- Literal text. -/
  | literal
  /-- The first character of an expression. -/
  | operator
  /-- The name of a variable. -/
  | name
  /-- The digits of a limit, with their value so far. -/
  | limit (value : Nat)
  /-- The end of a variable. -/
  | variableEnd
  deriving DecidableEq, Repr

/-- What was read so far. The lists are kept last item first; `verbatim` counts the characters of
an escape that are still to be taken as they are. -/
structure Progress where
  mode : Mode := .literal
  verbatim : Nat := 0
  consumed : List Char := []
  segments : List Segment := []
  text : List Char := []
  op : Operator := .simple
  vars : List Variable := []
  name : List Char := []
  deriving Repr

/-- Whether a character is a hexadecimal digit. -/
def isHex (c : Char) : Bool :=
  ('0' ≤ c && c ≤ '9') || ('a' ≤ c && c ≤ 'f') || ('A' ≤ c && c ≤ 'F')

/-- The code points that literal text may hold above ASCII. -/
def literalRanges : List (Nat × Nat) :=
  [(0xA0, 0xD7FF), (0xE000, 0xFDCF), (0xFDF0, 0xFFEF), (0x10000, 0x1FFFD), (0x20000, 0x2FFFD),
   (0x30000, 0x3FFFD), (0x40000, 0x4FFFD), (0x50000, 0x5FFFD), (0x60000, 0x6FFFD),
   (0x70000, 0x7FFFD), (0x80000, 0x8FFFD), (0x90000, 0x9FFFD), (0xA0000, 0xAFFFD),
   (0xB0000, 0xBFFFD), (0xC0000, 0xCFFFD), (0xD0000, 0xDFFFD), (0xE1000, 0xEFFFD),
   (0xF0000, 0xFFFFD), (0x100000, 0x10FFFD)]

/-- Whether literal text may hold a character. -/
def isLiteral (c : Char) : Bool :=
  let n := c.toNat
  n == 0x21 || n == 0x23 || n == 0x24 || n == 0x26 || (0x27 ≤ n && n ≤ 0x3B) || n == 0x3D ||
    (0x3F ≤ n && n ≤ 0x5B) || n == 0x5D || n == 0x5F || (0x61 ≤ n && n ≤ 0x7A) || n == 0x7E ||
    Text.inRanges literalRanges n

/-- Whether a name may hold a character besides dots and escapes. -/
def isNameChar (c : Char) : Bool :=
  ('0' ≤ c && c ≤ '9') || ('A' ≤ c && c ≤ 'Z') || ('a' ≤ c && c ≤ 'z') || c == '_'

/-- Whether two hexadecimal digits come next. -/
def twoHex : List (Option Char) → Bool
  | some a :: some b :: _ => isHex a && isHex b
  | _ => false

namespace Progress

/-- A fault whose character is not part of the consumed text. -/
def failBefore (p : Progress) (fault : Fault) : Except ReadError α :=
  .error ⟨fault, p.consumed.reverse, false⟩

/-- A fault marked as lying in the consumed text, which `c` ends. -/
def failAfter (p : Progress) (fault : Fault) (c : Char) : Except ReadError α :=
  .error ⟨fault, (c :: p.consumed).reverse, true⟩

/-- A fault at the end of the consumed text. -/
def failAt (p : Progress) (fault : Fault) : Except ReadError α :=
  .error ⟨fault, p.consumed.reverse, true⟩

/-- Consumes a character. -/
def take (p : Progress) (c : Char) : Progress :=
  { p with consumed := c :: p.consumed }

/-- Closes the literal text read so far. -/
def closeText (p : Progress) : Progress :=
  if p.text.isEmpty then p
  else { p with segments := .literal p.text.reverse :: p.segments, text := [] }

/-- Adds the variable whose name was read. -/
def addVariable (p : Progress) : Progress :=
  { p with vars := ⟨p.name.reverse, 0, false⟩ :: p.vars, name := [] }

/-- Changes the variable that was read last. -/
def mapLast (p : Progress) (f : Variable → Variable) : Progress :=
  { p with vars := match p.vars with
      | v :: rest => f v :: rest
      | [] => [] }

/-- Whether the name that was read can stand: it is not empty and does not end in a dot. -/
def nameStands (p : Progress) : Bool :=
  match p.name with
  | [] => false
  | c :: _ => c != '.'

/-- Closes the expression. -/
def closeExpression (p : Progress) : Progress :=
  { p with
    mode := .literal
    segments := .expression p.op p.vars.reverse :: p.segments
    vars := [] }

/-- A character of a name. -/
def stepName (p : Progress) (c : Char) (rest : List (Option Char)) : Except ReadError Progress :=
  match c with
  | ':' =>
    if p.nameStands then .ok { (p.take c).addVariable with mode := .limit 0 }
    else p.failAfter .unacceptableName c
  | '*' =>
    if p.nameStands then
      .ok { ((p.take c).addVariable.mapLast fun v => { v with explode := true }) with
        mode := .variableEnd }
    else p.failAfter .unacceptableName c
  | ',' =>
    if p.nameStands then .ok { (p.take c).addVariable with mode := .name }
    else p.failAt .unacceptableName
  | '\x7d' =>
    if p.nameStands then .ok (p.take c).addVariable.closeExpression
    else p.failAt .unacceptableName
  | '%' =>
    if twoHex rest then .ok { p.take c with name := c :: p.name, verbatim := 2 }
    else p.failBefore .incompleteEscape
  | '.' =>
    if p.nameStands then .ok { p.take c with name := c :: p.name }
    else p.failAfter .unacceptableName c
  | _ =>
    if isNameChar c then .ok { p.take c with name := c :: p.name }
    else p.failBefore .unacceptableName

/-- A character after a variable. -/
def stepVariableEnd (p : Progress) (c : Char) : Except ReadError Progress :=
  match c with
  | ',' => .ok { p.take c with mode := .name }
  | '\x7d' => .ok (p.take c).closeExpression
  | _ => p.failBefore .unknownModifier

/-- A character of a limit. -/
def stepLimit (p : Progress) (value : Nat) (c : Char) : Except ReadError Progress :=
  if Text.isDigit c then
    let value := value * 10 + Text.digitValue c
    if value = 0 ∨ 9999 < value then p.failAfter .badLimit c
    else .ok { ((p.take c).mapLast fun v => { v with limit := value }) with mode := .limit value }
  else if value = 0 then p.failBefore .badLimit
  else p.stepVariableEnd c

/-- The first character of an expression. -/
def stepOperator (p : Progress) (c : Char) (rest : List (Option Char)) :
    Except ReadError Progress :=
  match Operator.ofChar? c with
  | some op => .ok { p.take c with mode := .name, op := op }
  | none =>
    if ['=', ',', '!', '@', '|'].contains c then p.failAfter .unimplementedOperator c
    else stepName { p with mode := .name, op := .simple } c rest

/-- A character of literal text. -/
def stepLiteral (p : Progress) (c : Char) (rest : List (Option Char)) : Except ReadError Progress :=
  match c with
  | '\x7b' => .ok { (p.take c).closeText with mode := .operator }
  | '%' =>
    if twoHex rest then .ok { p.take c with text := c :: p.text, verbatim := 2 }
    else p.failBefore .incompleteEscape
  | _ =>
    if isLiteral c then .ok { p.take c with text := c :: p.text }
    else p.failBefore .unacceptableCharacter

/-- A character of an escape, taken as it is. -/
def stepVerbatim (p : Progress) (c : Char) : Progress :=
  let p := { p.take c with verbatim := p.verbatim - 1 }
  if p.mode = .literal then { p with text := c :: p.text } else { p with name := c :: p.name }

/-- Reads one character. -/
def step (p : Progress) (c : Char) (rest : List (Option Char)) : Except ReadError Progress :=
  if p.verbatim ≠ 0 then .ok (p.stepVerbatim c)
  else
    match p.mode with
    | .literal => p.stepLiteral c rest
    | .operator => p.stepOperator c rest
    | .name => p.stepName c rest
    | .limit value => p.stepLimit value c
    | .variableEnd => p.stepVariableEnd c

end Progress

/-- Reads the rest of a template. A character is missing where the text is not well encoded, and the
replacement character counts as such. -/
def readFrom (p : Progress) : List (Option Char) → Except ReadError PathTemplate
  | [] =>
    if p.mode = .literal then .ok ⟨p.closeText.segments.reverse⟩
    else p.failBefore .incompleteExpression
  | none :: _ => p.failBefore .invalidEncoding
  | some c :: rest =>
    if c = Text.replacement then p.failBefore .invalidEncoding
    else
      match p.step c rest with
      | .ok p => readFrom p rest
      | .error e => .error e

/-- Reads a template from its characters. -/
def read (s : List (Option Char)) : Except ReadError PathTemplate :=
  readFrom {} s

/-- Reads a template from a text. -/
def ofText (s : String) : Except ReadError PathTemplate :=
  read (s.toList.map some)

end ReviewQueue.PathTemplate
