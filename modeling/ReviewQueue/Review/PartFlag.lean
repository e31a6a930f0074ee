import ReviewQueue.Domain.Status
import ReviewQueue.Text.Blank
import ReviewQueue.Text.Numeral
import ReviewQueue.Text.Quoted
import ReviewQueue.Text.Upper

/-! Part verdicts as they are given on the command line: `N=STATUS[:feedback]`, with parts counted
from one. -/

namespace ReviewQueue

/-- A part verdict: the position of the part, counted from zero, and the verdict on it. -/
structure PartFlag where
  position : Int
  status : Status
  feedback : String
  deriving DecidableEq, Repr

/-- Why a flag is no part verdict. -/
inductive PartFlagError where
  | noEquals (raw : String)
  | badNumber (raw : String)
  | unknownStatus (raw status : String)
  deriving DecidableEq, Repr

/-- The wording of a flag error. -/
def PartFlagError.message : PartFlagError → String
  | .noEquals raw => "invalid --part " ++ Text.quoted raw ++ ": want N=STATUS[:feedback]"
  | .badNumber raw =>
    "invalid --part " ++ Text.quoted raw ++ ": part number must be 1 or more"
  | .unknownStatus raw status =>
    "invalid --part " ++ Text.quoted raw ++ ": unknown status " ++ Text.quoted status

namespace PartFlag

/-- Cuts a text at the first `c`; without one all of it comes first. -/
def cut (c : Char) (s : List Char) : List Char × Option (List Char) :=
  match s.dropWhile (· != c) with
  | _ :: rest => (s.takeWhile (· != c), some rest)
  | [] => (s, none)

/-- The number of a part: a numeral of at least one, with blanks around it. -/
def number? (s : List Char) : Option Int :=
  match Text.readNumeral (Text.trim s) with
  | .ok n => if 1 ≤ n then some n else none
  | .error _ => none

/-- Reads a part verdict. -/
def read (raw : String) : Except PartFlagError PartFlag :=
  match cut '=' raw.toList with
  | (_, none) => .error (.noEquals raw)
  | (number, some rest) =>
    match number? number with
    | none => .error (.badNumber raw)
    | some n =>
      let (label, feedback) := cut ':' rest
      let status : Status := ⟨Text.upper (.ofList (Text.trim label))⟩
      if status.isKnown then
        .ok ⟨n - 1, status, .ofList (Text.trim (feedback.getD []))⟩
      else .error (.unknownStatus raw (.ofList label))

end PartFlag
end ReviewQueue
