import ReviewQueue.Draft.Prompt
import ReviewQueue.Draft.Reply
import ReviewQueue.Json.Reader
import ReviewQueue.Remote.Client

/-! The call that asks for a draft. -/

namespace ReviewQueue

/-- Who drafts feedback: the answer to the two prompts of a call. -/
abbrev Drafter := (system user : String) → Http.Reply

namespace Draft

/-- The value of a member; of several the last one counts. -/
def member? (name : String) : Json → Option Json
  | .object members => (members.reverse.find? (·.1 == name)).map (·.2)
  | _ => none

/-- The text of a content block, if it is one of text. -/
def blockText? (block : Json) : Option String :=
  match member? "type" block, member? "text" block with
  | some (.string "text"), some (.string text) => some text
  | some (.string "text"), _ => some ""
  | _, _ => none

/-- The first text among the content of an answer. -/
def answerText (answer : Json) : String :=
  match member? "content" answer with
  | some (.array blocks) => (blocks.findSome? blockText?).getD ""
  | _ => ""

/-- Reads a draft out of what came back. -/
def ofAnswer : Http.Reply → Except DraftError Draft
  | .answered r =>
    if 400 ≤ r.status then .error .call
    else
      match Json.read r.body.toList with
      | some answer => ofReply (answerText answer)
      | none => .error .call
  | _ => .error .call

/-- Asks for feedback on a submission that fits the verdicts. -/
def request (drafter : Drafter) (s : Submission) (status : Status) (verdicts : List Status) :
    Except DraftError Draft :=
  ofAnswer (drafter systemPrompt (userPrompt s status verdicts))

end Draft
end ReviewQueue
