import ReviewQueue.Domain.Verdict
import ReviewQueue.Text.Upper

/-! What is written to the terminal.

A `Console` collects what goes to standard output and to standard error. Messages go to one of the
two by their kind, each with a mark of its own in front. -/

namespace ReviewQueue

/-- The colours that words are set in. -/
inductive Colour where
  | cyan
  | green
  | yellow
  | red
  deriving DecidableEq, Repr

/-- The number by which a terminal knows a colour. -/
def Colour.code : Colour → String
  | .cyan => "96"
  | .green => "92"
  | .yellow => "93"
  | .red => "91"

/-- The terminal: how it is used, and what was written to it. -/
structure Console where
  coloured : Bool := false
  verbose : Bool := false
  dryRun : Bool := false
  out : String := ""
  err : String := ""
  deriving DecidableEq, Repr, Inhabited

namespace Console

/-- A text in a colour, if colours are shown. -/
def paint (c : Console) (colour : Colour) (text : String) : String :=
  if c.coloured then "\x1b[" ++ colour.code ++ "m" ++ text ++ "\x1b[0m" else text

/-- A verdict in its colour, whatever its case; no verdict is a dash. -/
def status (c : Console) (label : String) : String :=
  let name := Text.upper label
  if name = Status.approved.label then c.paint .green label
  else if name = Status.rejected.label then c.paint .red label
  else if name = Status.pendingReview.label then c.paint .yellow label
  else if label = "" then "-"
  else label

/-- How many of all are done, green when none is left. -/
def progress (c : Console) (done total : Int) : String :=
  c.paint (if total ≤ done then .green else .yellow) (Text.ofInt done ++ "/" ++ Text.ofInt total)

/-- Writes to standard output. -/
def write (c : Console) (text : String) : Console :=
  { c with out := c.out ++ text }

/-- Writes to standard error. -/
def writeError (c : Console) (text : String) : Console :=
  { c with err := c.err ++ text }

/-- Writes a line to standard output. -/
def line (c : Console) (text : String) : Console :=
  c.write (text ++ "\n")

def info (c : Console) (message : String) : Console :=
  c.line ("i " ++ message)

def success (c : Console) (message : String) : Console :=
  c.line ("✓ " ++ message)

def warning (c : Console) (message : String) : Console :=
  c.writeError ("⚠ " ++ message ++ "\n")

def failure (c : Console) (message : String) : Console :=
  c.writeError ("✗ " ++ message ++ "\n")

/-- A message that only those want to see who asked for more. -/
def detail (c : Console) (message : String) : Console :=
  if c.verbose then c.line ("  → " ++ message) else c

/-- A message about what would be done. -/
def rehearse (c : Console) (message : String) : Console :=
  if c.dryRun then c.warning ("[DRY-RUN] " ++ message) else c

/-- A message by its kind. -/
def notify (c : Console) (n : Notice) : Console :=
  match n.kind with
  | "success" => c.success n.message
  | "warning" => c.warning n.message
  | "error" => c.failure n.message
  | _ => c.info n.message

end Console
end ReviewQueue
