import ReviewQueue.Console.Basic
import ReviewQueue.Text.Blank
import ReviewQueue.Text.Numeral

/-! Questions on the terminal, and the lines that answer them.

A choice is asked again until a number in range is given; a blank line takes what is set already.
Every field ends with a line break. -/

namespace ReviewQueue

/-- The terminal: what was written to it, and the lines that are still to be typed. -/
structure Terminal where
  console : Console := {}
  input : List String := []
  /-- Whether a question had to be left without an answer. -/
  starved : Bool := false
  deriving DecidableEq, Repr, Inhabited

/-- Why a question has no answer. -/
inductive PromptError where
  | inputEnded
  /-- There is nothing to choose from. -/
  | noOptions
  deriving DecidableEq, Repr

namespace Terminal

/-- Lets something be written. -/
def tell (t : Terminal) (f : Console → Console) : Terminal :=
  { t with console := f t.console }

/-- What asks for a number. -/
def choicePrompt (count : Nat) : String :=
  if count = 1 then "There is only one option available; enter the number 1:"
  else "Enter a number between 1 and " ++ Text.ofInt count ++ ": "

/-- What is said about an answer that is none of the choices. -/
def badChoice (count : Nat) : String :=
  if count = 1 then "Invalid: must be 1"
  else "Invalid: must be a number between 1 and " ++ Text.ofInt count

/-- The position that an answer names. -/
def choice? (count : Nat) (line : String) : Option Nat :=
  match Text.toInt? line with
  | some n => if 1 ≤ n ∧ n ≤ count then some (n - 1).toNat else none
  | none => none

/-- Asks for a number until one in range is given. -/
def readChoice (count start : Nat) (c : Console) : List String → Terminal × Except PromptError Nat
  | [] => ({ console := c.write (choicePrompt count), starved := true }, .error .inputEnded)
  | line :: rest =>
    let c := c.write (choicePrompt count)
    if (Text.trim line.toList).isEmpty then
      ({ console := c, input := rest }, if start < count then .ok start else .error .noOptions)
    else
      match choice? count line with
      | some n => ({ console := c, input := rest }, .ok n)
      | none => readChoice count start (c.line (badChoice count)) rest

/-- The numbered options, counted from `n`. -/
def numbered (n : Nat) : List String → List String
  | [] => []
  | option :: rest => (Text.ofInt n ++ ". " ++ option) :: numbered (n + 1) rest

/-- Asks for one of several options; a blank answer takes the one at `start`. -/
def select (t : Terminal) (title : String) (options : List String) (start : Nat) :
    Terminal × Except PromptError Nat :=
  let c := (numbered 1 options).foldl Console.line (t.console.line (title ++ " "))
  match readChoice options.length start c t.input with
  | (t, .ok n) => (t.tell (·.line ""), .ok n)
  | (t, .error e) => (t, .error e)

/-- Asks for a text; a blank answer keeps the current one. -/
def askText (t : Terminal) (title current : String) : Terminal × Except PromptError String :=
  let c := t.console.write (title ++ " ")
  match t.input with
  | [] => ({ console := c, starved := true }, .error .inputEnded)
  | line :: rest =>
    let text := Text.trim line.toList
    ({ console := c.line "", input := rest }, .ok (if text.isEmpty then current else .ofList text))

end Terminal
end ReviewQueue
