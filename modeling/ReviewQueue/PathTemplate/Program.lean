import ReviewQueue.PathTemplate.Basic

/-! The pattern of a template, as a program for a matcher.

Addresses are positions in the program. `split` goes on with the next instruction and, with lower
priority, at its target. -/

namespace ReviewQueue.PathTemplate

/-- An instruction of a pattern. -/
inductive Instr where
  /-- Takes this character. -/
  | char (c : Char)
  /-- Takes a character that the operator allows. -/
  | allowed (op : Operator)
  /-- Takes a hexadecimal digit. -/
  | hex
  /-- Passes at the start of the text. -/
  | textStart
  /-- Passes at the end of the text. -/
  | textEnd
  /-- Notes the position at which a piece of a variable's value starts or ends. -/
  | mark (key : List Char)
  | split (target : Nat)
  | jump (target : Nat)
  | skip
  | done
  deriving DecidableEq, Repr

/-- The instructions that take a text. -/
def literalCode (text : List Char) : List Instr :=
  text.map .char

/-- Takes one character of a value or one percent escape; the code is loaded at address `base`. -/
def valueUnit (op : Operator) (base : Nat) : List Instr :=
  [.split (base + 3), .allowed op, .jump (base + 6), .char '%', .hex, .hex]

/-- Takes any number of characters of a value, but one. -/
def valueLoop (op : Operator) (base : Nat) : List Instr :=
  valueUnit op base ++ [.split (base + 8), .jump base]

/-- Takes `count` further characters of a value, each of which may be left out. -/
def valueRest (op : Operator) (base : Nat) : Nat → List Instr
  | 0 => []
  | count + 1 =>
    .split (base + 7) :: valueUnit op (base + 1) ++ valueRest op (base + 7) count

/-- Takes the characters of a value. -/
def valueBody (op : Operator) (v : Variable) (base : Nat) : List Instr :=
  match v.limit with
  | 0 => valueLoop op base
  | count + 1 => valueUnit op base ++ valueRest op (base + 6) count

/-- Takes a value, which may be empty, and notes where it lies. -/
def valueCode (op : Operator) (v : Variable) (base : Nat) : List Instr :=
  let body := valueBody op v (base + 2)
  .mark v.key :: .split (base + 2 + body.length) :: body ++ [.mark v.key]

/-- Takes the values of a variable without its name. -/
def plainCode (op : Operator) (v : Variable) (base : Nat) : List Instr :=
  let value := valueCode op v base
  let more := literalCode (if v.explode then op.separator else [','])
  let afterValue := base + value.length
  value ++ .split (afterValue + 2) :: .jump (afterValue + 3 + more.length) :: more ++ [.jump base]

/-- Takes the values of a variable after its name, which is written once. -/
def namedCode (op : Operator) (v : Variable) (base : Nat) : List Instr :=
  let name := literalCode v.name
  let emptyMark := literalCode op.emptyMark
  let loopStart := base + name.length + 3
  let value := valueCode op v (loopStart + 1)
  let afterValue := loopStart + 1 + value.length
  -- addresses behind the loop: the comma alone, the mark of an empty value, and the end
  let comma := afterValue + 3
  let empty := comma + 2
  let finish := empty + emptyMark.length
  name ++ .split empty :: .char '=' :: .split comma ::
    .split afterValue :: value ++ .split finish :: .char ',' :: .jump loopStart ::
    .char ',' :: .jump finish :: emptyMark

/-- Takes the values of a variable, each after its name. -/
def explodedCode (op : Operator) (v : Variable) (base : Nat) : List Instr :=
  let name := literalCode v.name
  let separator := literalCode op.separator
  let emptyMark := literalCode op.emptyMark
  let nameStart := base + 1
  let afterName := nameStart + 1 + name.length
  let value := valueCode op v (afterName + 2)
  let afterValue := afterName + 2 + value.length
  let empty := afterValue + 1 + separator.length + 1
  let finish := empty + emptyMark.length + 1
  .split finish :: .skip :: name ++ .split empty :: .char '=' :: value ++
    .split finish :: separator ++ .jump nameStart :: emptyMark ++ [.jump afterValue]

/-- Takes the values of a variable. -/
def variableCode (op : Operator) (v : Variable) (base : Nat) : List Instr :=
  if !op.isNamed then plainCode op v base
  else if v.explode then explodedCode op v base
  else namedCode op v base

/-- Takes the separator in front of a variable that is not the first, if it is there. -/
def separatorCode (op : Operator) (first : Bool) (base : Nat) : List Instr :=
  if first then []
  else .split (base + 1 + op.separator.length) :: literalCode op.separator

/-- Takes the variables of an expression, each of which may be left out. -/
def variablesCode (op : Operator) (first : Bool) (base : Nat) : List Variable → List Instr
  | [] => []
  | v :: rest =>
    let separator := separatorCode op first (base + 1)
    let body := separator ++ variableCode op v (base + 1 + separator.length)
    let next := base + 1 + body.length
    .split next :: body ++ variablesCode op false next rest

/-- The code of a piece of a template. -/
def segmentCode (base : Nat) : Segment → List Instr
  | .literal text => literalCode text
  | .expression op vars =>
    let opening := literalCode op.opening
    let body := opening ++ variablesCode op true (base + 1 + opening.length) vars
    .split (base + 1 + body.length) :: body

/-- The code of pieces in order. -/
def segmentsCode (base : Nat) : List Segment → List Instr
  | [] => []
  | s :: rest =>
    let code := segmentCode base s
    code ++ segmentsCode (base + code.length) rest

/-- The pattern of a template. -/
def program (t : PathTemplate) : List Instr :=
  .textStart :: segmentsCode 1 t.segments ++ [.textEnd, .done]

end ReviewQueue.PathTemplate
