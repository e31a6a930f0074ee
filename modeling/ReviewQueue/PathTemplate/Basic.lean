import ReviewQueue.Text.Numeral

/-! Path templates: literal text with expressions in braces.

An expression has an operator and a list of variables. The operator says how the expression starts,
what stands between its variables, whether each value is preceded by its name, and which characters
of a value are written as they are. -/

namespace ReviewQueue

/-- The operator of an expression; `simple` is the one that is not written. -/
inductive Operator where
  | simple
  | reserved
  | fragment
  | label
  | path
  | parameter
  | query
  | continuation
  deriving DecidableEq, Repr

namespace Operator

/-- The operator that a character selects. -/
def ofChar? : Char → Option Operator
  | '+' => some .reserved
  | '#' => some .fragment
  | '.' => some .label
  | '/' => some .path
  | ';' => some .parameter
  | '?' => some .query
  | '&' => some .continuation
  | _ => none

/-- What is written before the first value. -/
def opening : Operator → List Char
  | .simple | .reserved => []
  | .fragment => ['#']
  | .label => ['.']
  | .path => ['/']
  | .parameter => [';']
  | .query => ['?']
  | .continuation => ['&']

/-- What is written between two values. -/
def separator : Operator → List Char
  | .simple | .reserved | .fragment => [',']
  | .label => ['.']
  | .path => ['/']
  | .parameter => [';']
  | .query | .continuation => ['&']

/-- Whether each value is preceded by the name of its variable. -/
def isNamed : Operator → Bool
  | .parameter | .query | .continuation => true
  | _ => false

/-- What follows the name of a variable whose value is empty. -/
def emptyMark : Operator → List Char
  | .query | .continuation => ['=']
  | _ => []

/-- Whether reserved characters of a value are written as they are. -/
def keepsReserved : Operator → Bool
  | .reserved | .fragment => true
  | _ => false

end Operator

/-- Letters, digits and the marks that are never escaped. -/
def isUnreserved (c : Char) : Bool :=
  ('A' ≤ c && c ≤ 'Z') || ('a' ≤ c && c ≤ 'z') || ('0' ≤ c && c ≤ '9') ||
    c == '-' || c == '.' || c == '_' || c == '~'

/-- The characters that have a meaning of their own in a path. -/
def isReserved (c : Char) : Bool :=
  [':', '/', '?', '#', '[', ']', '@', '!', '$', '&', '\'', '(', ')', '*', '+', ',', ';',
    '='].contains c

/-- Whether an expression with this operator writes a character as it is. -/
def Operator.allows (op : Operator) (c : Char) : Bool :=
  isUnreserved c || (op.keepsReserved && isReserved c)

/-- A variable of an expression. A positive `limit` cuts its value to that many bytes. -/
structure Variable where
  name : List Char
  limit : Nat := 0
  explode : Bool := false
  deriving DecidableEq, Repr

/-- The key under which a variable's value is captured: its name, together with its limit when it
has one. -/
def Variable.key (v : Variable) : List Char :=
  if v.limit = 0 then v.name else v.name ++ ':' :: Text.decimal v.limit

/-- A piece of a template. -/
inductive Segment where
  | literal (text : List Char)
  | expression (op : Operator) (vars : List Variable)
  deriving DecidableEq, Repr

/-- A template, as its pieces in order. -/
structure PathTemplate where
  segments : List Segment
  deriving DecidableEq, Repr

/-- The names of all variables of a template. -/
def PathTemplate.names (t : PathTemplate) : List (List Char) :=
  t.segments.flatMap fun
    | .literal _ => []
    | .expression _ vars => vars.map (·.name)

end ReviewQueue
