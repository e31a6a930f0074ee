import ReviewQueue.Domain.Submission

/-! What a language model is asked when it is to draft feedback. -/

namespace ReviewQueue.Draft

/-- What the model is told about its task. -/
def systemPrompt : String :=
  "You help a human reviewer write feedback on submitted labeling work. The reviewer has " ++
  "already decided the verdict; you only write the feedback text that will be shown " ++
  "to the worker.\n\n" ++
  "Return a JSON object with these fields:\n" ++
  "- \"feedback\": 1-3 sentences of overall feedback\n" ++
  "- \"parts\": only when the submission has parts, an array of \x7b\"index\": <part index>, " ++
  "\"feedback\": <1-2 sentences>\x7d with one entry per part\n\n" ++
  "Rules:\n" ++
  "- Be specific and constructive. Refer to what the instructions ask for\n" ++
  "- For REJECTED verdicts explain what must change before resubmission\n" ++
  "- For APPROVED verdicts keep it short and mention what was done well\n" ++
  "- Never contradict the reviewer's verdict\n" ++
  "- Return valid JSON only, no markdown fencing or explanation"

/-- A raw field under a title; one that is absent or null is left out. -/
def rawPart (title raw : String) : String :=
  if raw = "" ∨ raw = "null" then "" else "\n" ++ title ++ ":\n" ++ raw ++ "\n"

/-- The verdicts on the parts: those that the reviewer chose, by position, and the stored ones where
there are more parts. -/
def partLines : List Part → List Status → List String
  | [], _ => []
  | p :: parts, verdicts =>
    ("- part " ++ Text.ofInt p.index ++ ": " ++ (verdicts.head?.getD p.status).label ++ "\n") ::
      partLines parts verdicts.tail

/-- What the model is told about a submission and its verdict. -/
def userPrompt (s : Submission) (status : Status) (verdicts : List Status) : String :=
  let name := Person.fullName? s.worker
  "Submission #" ++ Text.ofInt s.id ++ (if s.title = "" then "" else ": " ++ s.title) ++ "\n" ++
  (if s.description = "" then "" else "\nDescription: " ++ s.description ++ "\n") ++
  (if name = "" then "" else "Worker: " ++ name ++ "\n") ++
  rawPart "Instructions" s.instructions ++
  rawPart "Task data" s.taskData ++
  rawPart "Submitted data" s.data ++
  (if s.hasParts then
    "\nReviewer verdicts per part:\n" ++ String.join (partLines s.partList verdicts)
  else "\nReviewer verdict: " ++ status.label ++ "\n")

end ReviewQueue.Draft
