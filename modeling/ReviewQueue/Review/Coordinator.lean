import ReviewQueue.Notices
import ReviewQueue.Remote.Executor
import ReviewQueue.Review.Form
import ReviewQueue.Review.Preferences

/-! Saving a verdict, and what follows.

A save is one write. When it succeeds, the user is told, the list is refreshed, and the review moves
on, in this order; when it fails, the user is told why, item by item, and nothing else happens. -/

namespace ReviewQueue

/-- Where a verdict goes, which list shows it, and what is said when it is saved. -/
structure Coordinator where
  detailPath : String
  listPath : String
  successMessage : String
  deriving DecidableEq, Repr

/-- What a save does to a world. -/
structure CoordinatorActions (σ : Type) where
  send : σ → (path : String) → Verdict → σ × Outcome
  notify : σ → Notice → σ
  refresh : σ → (path : String) → σ
  advance : σ → σ

namespace Coordinator

/-- A coordinator; an empty message means the usual one. -/
def make (detailPath listPath message : String) : Coordinator :=
  { detailPath, listPath
    successMessage := if message = "" then Preferences.defaultSuccessMessage else message }

/-- Reads the submission that a save returned. -/
def saved? (data : Option String) : Option Submission := do
  let s ← Json.decode? {} Submission.fill (← data).toList
  return { s with parts := s.parts.map Part.sort }

/-- What follows a save that succeeded. -/
def succeed (c : Coordinator) (actions : CoordinatorActions σ) (world : σ) : σ :=
  let world := actions.notify world (.success c.successMessage)
  let world := actions.refresh world c.listPath
  actions.advance world

/-- What follows a save that failed. -/
def fail (actions : CoordinatorActions σ) (world : σ) (info : List Notice) : σ :=
  (Notice.ofInfo info).foldl actions.notify world

/-- The save as a write. Beside the world it keeps the submission that was returned. -/
def writeActions (c : Coordinator) (actions : CoordinatorActions σ) (verdict : Verdict) :
    WriteActions (σ × Option Submission) where
  send _ world request :=
    let (next, outcome) := actions.send world.1 request.path verdict
    ((next, world.2), outcome)
  onSuccess := some fun _ world data => (c.succeed actions world.1, saved? data)
  onError := some fun _ world info => (fail actions world.1 info, world.2)

/-- Saves the verdict of a form, unless another save is under way. -/
def submit (c : Coordinator) (e : Executor) (actions : CoordinatorActions σ) (world : σ)
    (s : Submission) (mode : Mode) (form : Form) :
    Executor × σ × Except WriteError (Option Submission) :=
  let verdict := form.verdict mode s
  let request : WriteRequest :=
    { method := "PUT", path := c.detailPath, body := some (.ofList verdict.json) }
  let (e, (world, saved), result) :=
    e.trigger (c.writeActions actions verdict) (world, none) request
  (e, world, result.map fun _ => saved)

end Coordinator
end ReviewQueue
