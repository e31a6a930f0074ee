import ReviewQueue.Review.Form

/-! The gate in front of submitting, and the verdicts that are offered.

The gate only asks for feedback to be there; whether it says anything is for the service to
judge. -/

namespace ReviewQueue

/-- Whether every part has a final verdict, and a feedback where it is rejected. -/
def Form.partsReady : List Status → List String → Bool
  | [], _ => true
  | st :: rest, feedbacks =>
    (st == .approved || (st == .rejected && feedbacks.head?.getD "" != "")) &&
      partsReady rest feedbacks.tail

/-- Whether a form may be submitted. -/
def Form.canSubmit (form : Form) (mode : Mode) (readOnly inFlight : Bool) : Bool :=
  if inFlight || readOnly then false
  else
    match mode with
    | .single => !form.status.isNone && form.feedback != ""
    | .parts => !form.partsStatus.isEmpty && partsReady form.partsStatus form.partsFeedback

namespace StatusOption

/-- The position of a verdict among those that are wanted. -/
def rank (wanted : List Status) (o : StatusOption) : Nat :=
  wanted.idxOf o.label

/-- The options that are wanted, in the order in which they are wanted; options of one verdict keep
their order. Nothing wanted means that all are. In parts mode the known verdicts are wanted. -/
def select (mode : Mode) (wanted : List Status) (options : List StatusOption) :
    List StatusOption :=
  let wanted := if mode = .parts then Status.known else wanted
  if wanted.isEmpty then options
  else
    (options.filter fun o => wanted.contains o.label).mergeSort fun a b =>
      decide (rank wanted a ≤ rank wanted b)

end StatusOption
end ReviewQueue
