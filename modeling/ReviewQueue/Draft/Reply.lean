import ReviewQueue.Json.Fill
import ReviewQueue.Domain.Codec
import ReviewQueue.Text.Blank

/-! Drafted feedback, and how it is read out of a model's reply.

The reply is a JSON text, which may stand in a fence of three backquotes. -/

namespace ReviewQueue

/-- Drafted feedback on one part. -/
structure PartDraft where
  index : Int := 0
  feedback : String := ""
  deriving DecidableEq, Repr, Inhabited

/-- Drafted feedback on a submission. -/
structure Draft where
  feedback : String := ""
  parts : Option (List PartDraft) := none
  deriving DecidableEq, Repr, Inhabited

/-- Why there is no draft. -/
inductive DraftError where
  /-- The call failed. -/
  | call
  /-- The reply has no text. -/
  | noText
  /-- The text is no draft. -/
  | malformed (text : String)
  deriving DecidableEq, Repr

/-- The wording of a draft error. -/
def DraftError.message : DraftError → String
  | .call => "anthropic API call: <sdk error>"
  | .noText => "no text content in API response"
  | .malformed text => "parse LLM response as JSON: <json error>\nraw response: " ++ text

namespace PartDraft

def json (p : PartDraft) : List Char :=
  record [member "index" (Json.intText p.index), member "feedback" (Json.stringText p.feedback)]

def fill : Json.Filler PartDraft :=
  Json.fillRecord
    [Json.field "index" PartDraft.index (fun p v => { p with index := v }) Json.fillInt,
     Json.field "feedback" PartDraft.feedback (fun p v => { p with feedback := v })
       Json.fillString]

end PartDraft

namespace Draft

def json (d : Draft) : List Char :=
  let parts := d.parts.getD []
  record
    [member "feedback" (Json.stringText d.feedback),
     if parts.isEmpty then none else member "parts" (Json.arrayText (parts.map PartDraft.json))]

def fill : Json.Filler Draft :=
  Json.fillRecord
    [Json.field "feedback" Draft.feedback (fun d v => { d with feedback := v }) Json.fillString,
     Json.field "parts" Draft.parts (fun d v => { d with parts := v })
       (Json.fillList {} PartDraft.fill)]

/-- The drafted feedback on the part with an index: the first there is, or nothing. -/
def partFeedback (d : Draft) (index : Int) : String :=
  (((d.parts.getD []).find? (·.index == index)).map PartDraft.feedback).getD ""

/-- Three backquotes. -/
def fence : List Char := List.replicate 3 (Char.ofNat 0x60)

/-- What stands before the last fence. -/
def beforeLastFence? : List Char → Option (List Char)
  | [] => none
  | c :: rest =>
    match beforeLastFence? rest with
    | some before => some (c :: before)
    | none => if fence.isPrefixOf (c :: rest) then some [] else none

/-- What follows the first line; a text of one line stays whole. -/
def afterFirstLine (s : List Char) : List Char :=
  match s.dropWhile (· != '\n') with
  | _ :: rest => rest
  | [] => s

/-- Takes a text out of the fence around it, and drops the blanks at its ends. -/
def stripFence (s : List Char) : List Char :=
  let s := Text.trim s
  if fence.isPrefixOf s then
    let inner := afterFirstLine s
    Text.trim ((beforeLastFence? inner).getD inner)
  else s

/-- Reads a draft out of a reply. -/
def ofReply (text : String) : Except DraftError Draft :=
  match stripFence text.toList with
  | [] => .error .noText
  | s =>
    match Json.decode? {} fill s with
    | some d => .ok d
    | none => .error (.malformed (.ofList s))

end Draft
end ReviewQueue
