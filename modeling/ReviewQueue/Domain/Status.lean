/-! Review verdicts.

A verdict is kept as text, because a record may hold any text there; the empty text says that no
verdict was given yet. Three texts are known verdicts. -/

namespace ReviewQueue

/-- The verdict on a submission or on one of its parts. -/
structure Status where
  label : String
  deriving DecidableEq, Repr

namespace Status

/-- No verdict yet. -/
def none : Status := ⟨""⟩

instance : Inhabited Status := ⟨none⟩

def approved : Status := ⟨"APPROVED"⟩

def rejected : Status := ⟨"REJECTED"⟩

def pendingReview : Status := ⟨"PENDING_REVIEW"⟩

/-- The verdicts that a reviewer may give, in display order. -/
def known : List Status := [approved, rejected, pendingReview]

/-- Whether a verdict is one of the known ones. -/
def isKnown (s : Status) : Bool := known.contains s

/-- Whether no verdict was given. -/
def isNone (s : Status) : Bool := s == none

/-- Whether work with this verdict still waits for a review. -/
def isOpen (s : Status) : Bool := s == none || s == pendingReview

end Status
end ReviewQueue
