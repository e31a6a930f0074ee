import ReviewQueue.Domain.Submission

/-! What a review update says, and what a refused one is told. -/

namespace ReviewQueue

/-- The verdict on one part, as it is sent. -/
structure PartVerdict where
  submission : Int := 0
  index : Int := 0
  status : Status := .none
  feedback : String := ""
  deriving DecidableEq, Repr, Inhabited

/-- A review update: either a verdict on the whole or verdicts on parts. -/
structure Verdict where
  timeElapsed : Int := 0
  status : Status := .none
  feedback : String := ""
  parts : Option (List PartVerdict) := none
  deriving DecidableEq, Repr, Inhabited

/-- The part verdicts, none when the list is missing. -/
def Verdict.partList (v : Verdict) : List PartVerdict := v.parts.getD []

/-- Whether the update reviews part by part. -/
def Verdict.hasParts (v : Verdict) : Bool := !v.partList.isEmpty

/-- A message to the user with its kind. -/
structure Notice where
  message : String := ""
  kind : String := ""
  deriving DecidableEq, Repr, Inhabited

/-- A message of the kind `error`. -/
def Notice.ofError (message : String) : Notice := ⟨message, "error"⟩

/-- The body of a refused request. -/
structure Refusal where
  info : Option (List Notice) := none
  deriving DecidableEq, Repr, Inhabited

/-- A verdict that a reviewer may choose. -/
structure StatusOption where
  label : Status := .none
  deriving DecidableEq, Repr, Inhabited

/-- The answer to a request for the verdicts to choose from. -/
structure StatusOptionList where
  results : Option (List StatusOption) := none
  deriving DecidableEq, Repr, Inhabited

end ReviewQueue
