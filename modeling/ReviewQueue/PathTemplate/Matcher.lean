import ReviewQueue.PathTemplate.Program
import ReviewQueue.PathTemplate.Reader

/-! The matcher: all threads of a program run side by side, one character at a time, in order of
priority. The first thread that is done wins over those behind it, while those before it go on and
may still replace its captures with longer ones. -/

namespace ReviewQueue.PathTemplate

/-- The positions noted for each variable, in the order they were noted. -/
abbrev Captures := List (List Char × List Nat)

namespace Captures

/-- Notes a position. -/
def note (captures : Captures) (key : List Char) (pos : Nat) : Captures :=
  match captures with
  | [] => [(key, [pos])]
  | (k, ps) :: rest => if k = key then (k, ps ++ [pos]) :: rest else (k, ps) :: note rest key pos

/-- Replaces the positions of one variable. -/
def put (captures : Captures) (key : List Char) (positions : List Nat) : Captures :=
  match captures with
  | [] => [(key, positions)]
  | (k, ps) :: rest => if k = key then (k, positions) :: rest else (k, ps) :: put rest key positions

/-- Lets newer captures replace older ones. -/
def update (older newer : Captures) : Captures :=
  newer.foldl (fun acc p => acc.put p.1 p.2) older

end Captures

/-- A thread that waits at an instruction. -/
structure Thread where
  pc : Nat
  captures : Captures

/-- The threads of one position in order of priority, and the addresses that are in use. -/
structure Crowd where
  seen : Array Bool
  threads : Array Thread

/-- No threads of a program. -/
def Crowd.empty (size : Nat) : Crowd :=
  ⟨Array.replicate size false, #[]⟩

/-- Adds the threads that stand at an address and wherever it leads without taking a character. An
address is followed once only. -/
def Crowd.add (code : Array Instr) (pos : Nat) (more : Bool) :
    Nat → Crowd → Nat → Captures → Crowd
  | 0, crowd, _, _ => crowd
  | fuel + 1, crowd, pc, captures =>
    if crowd.seen.getD pc true then crowd
    else
      let crowd := { crowd with seen := crowd.seen.setIfInBounds pc true }
      match code[pc]? with
      | none => crowd
      | some instr =>
        match instr with
        | .textStart => if pos = 0 then add code pos more fuel crowd (pc + 1) captures else crowd
        | .textEnd => if more then crowd else add code pos more fuel crowd (pc + 1) captures
        | .mark key => add code pos more fuel crowd (pc + 1) (captures.note key pos)
        | .split target =>
          let crowd := add code pos more fuel crowd (pc + 1) captures
          add code pos more fuel crowd target captures
        | .jump target => add code pos more fuel crowd target captures
        | .skip => add code pos more fuel crowd (pc + 1) captures
        | _ => { crowd with threads := crowd.threads.push ⟨pc, captures⟩ }

/-- Whether an instruction takes a character. -/
def Instr.takes (instr : Instr) (c : Char) : Bool :=
  match instr with
  | .char d => c == d
  | .allowed op => op.allows c
  | .hex => isHex c
  | _ => false

/-- Moves the threads of one position over a character, in order, until one is done. -/
def advance (code : Array Instr) (c : Option Char) (pos : Nat) (more : Bool) :
    List Thread → Crowd → Option Captures → Crowd × Option Captures
  | [], next, found => (next, found)
  | t :: rest, next, found =>
    match code[t.pc]? with
    | some .done => (next, some (Captures.update (found.getD []) t.captures))
    | some instr =>
      let next :=
        match c with
        | some c =>
          if instr.takes c then
            next.add code (pos + 1) more (code.size + 1) (t.pc + 1) t.captures
          else next
        | none => next
      advance code c pos more rest next found
    | none => advance code c pos more rest next found

/-- Runs the threads over the text from a position on. -/
def runFrom (code : Array Instr) (pos : Nat) (crowd : Crowd) (found : Option Captures) :
    List Char → Option Captures
  | [] =>
    if crowd.threads.isEmpty && found.isSome then found
    else
      let crowd := if found.isSome then crowd else crowd.add code pos false (code.size + 1) 0 []
      (advance code none pos false crowd.threads.toList (.empty code.size) found).2
  | c :: rest =>
    if crowd.threads.isEmpty && found.isSome then found
    else
      let more := !rest.isEmpty
      let crowd := if found.isSome then crowd else crowd.add code pos more (code.size + 1) 0 []
      let (next, found) :=
        advance code (some c) pos more crowd.threads.toList (.empty code.size) found
      runFrom code (pos + 1) next found rest

/-- The captures of a text, if it matches. -/
def captures? (t : PathTemplate) (text : List Char) : Option Captures :=
  let code := t.program.toArray
  runFrom code 0 (.empty code.size) none text

/-- The first piece that was captured, as it stands in the text. -/
def firstPiece? (text : List Char) : List Nat → Option (List Char)
  | start :: stop :: _ => some ((text.drop start).take (stop - start))
  | _ => none

end ReviewQueue.PathTemplate
