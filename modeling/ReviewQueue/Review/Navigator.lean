import ReviewQueue.Domain.Submission
import ReviewQueue.Route

/-! The neighbours of a submission in the list of its siblings.

The current submission is the first entry with its id. The ends of the list are hard stops, and a
missing entry or one with id zero is no neighbour. -/

namespace ReviewQueue

/-- Why a move was not made. -/
inductive MoveError where
  /-- There is no neighbour on that side. -/
  | noTarget
  /-- The path to the neighbour cannot be built. -/
  | path (id : Int) (cause : RouteError)
  deriving DecidableEq, Repr

/-- The wording of a move error. -/
def MoveError.message : MoveError → String
  | .noTarget => "no submission in that direction"
  | .path id cause => "build path to submission " ++ Text.ofInt id ++ ": " ++ cause.message

/-- The neighbours of a submission, and how to build the path to one. -/
structure Navigator where
  template : String
  params : Params
  next : Option Int := none
  previous : Option Int := none
  deriving DecidableEq, Repr

namespace Navigator

/-- The id of an entry that can be moved to. -/
def target? (entry : Option Summary) : Option Int :=
  match entry with
  | some s => if s.id = 0 then none else some s.id
  | none => none

/-- Whether an entry has an id. -/
def isAt (id : Int) (entry : Option Summary) : Bool :=
  entry.any (·.id == id)

/-- The entries around the first one with an id: the one before it and the one after it. -/
def around (id : Int) (before : Option Summary) :
    List (Option Summary) → Option Int × Option Int
  | [] => (none, none)
  | entry :: rest =>
    if isAt id entry then (target? before, target? rest.head?.join)
    else around id entry rest

/-- Locates a submission, given by the text of its id, among its siblings. -/
def locate (siblings : List (Option Summary)) (current : String) (template : String)
    (params : Params) : Navigator :=
  match Text.toInt? current with
  | none => { template, params }
  | some id =>
    let (previous, next) := around id none siblings
    { template, params, next, previous }

/-- The path to a neighbour. -/
def pathTo (n : Navigator) : Option Int → Except MoveError String
  | none => .error .noTarget
  | some id =>
    match Route.build n.template ((Route.submissionId, Text.ofInt id) :: n.params) with
    | .ok path => .ok path
    | .error e => .error (.path id e)

/-- The path to the next sibling. -/
def goNext (n : Navigator) : Except MoveError String := n.pathTo n.next

/-- The path to the previous sibling. -/
def goPrevious (n : Navigator) : Except MoveError String := n.pathTo n.previous

/-- Where to go after a save: to the next sibling, if there is one and its path can be built. -/
def advance? (n : Navigator) : Option String := n.goNext.toOption

end Navigator
end ReviewQueue
