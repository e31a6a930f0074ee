import ReviewQueue.Query.Desk

/-! Background fetches that are held on their way.

A background fetch of a path that is held stays between its start and its end until the path is let
go. A second one that is run meanwhile sends nothing: it waits for the fetch that is under way, and
gets its outcome. -/

namespace ReviewQueue

/-- A remote whose fetches can be held between their start and their end. -/
class Staged (ω : Type) (α : outParam Type) extends Remote ω where
  start : ω → (path : String) → ω × α
  finish : ω → (path : String) → α → ω × Outcome

/-- A fetch that is under way. -/
structure Flight (α : Type) where
  path : String
  /-- What became of it at its start. -/
  state : α
  /-- How many background fetches wait for its outcome. -/
  waiting : Nat := 1
  deriving DecidableEq, Repr

/-- A desk, the paths that are held, and the fetches of them that are under way. -/
structure HeldDesk (ω α : Type) where
  desk : Desk ω
  held : List String := []
  /-- Oldest first. -/
  flights : List (Flight α) := []

namespace HeldDesk

variable [Staged ω α]

/-- Holds a path. -/
def hold (h : HeldDesk ω α) (path : String) : HeldDesk ω α :=
  { h with held := path :: h.held }

/-- One more background fetch waits for the fetch of a path. -/
def join (path : String) (flights : List (Flight α)) : List (Flight α) :=
  flights.map fun f => if f.path = path then { f with waiting := f.waiting + 1 } else f

/-- Waits for the fetch of a path that is under way, or starts one. -/
def board (h : HeldDesk ω α) (path : String) : HeldDesk ω α :=
  if path ∈ h.flights.map (·.path) then { h with flights := join path h.flights }
  else
    let (remote, state) := Staged.start h.desk.remote path
    { h with desk := { h.desk with remote }, flights := h.flights ++ [{ path, state }] }

/-- Runs a background fetch, as far as it can go. -/
def run (h : HeldDesk ω α) (path : String) : HeldDesk ω α :=
  if path ∈ h.held then h.board path else { h with desk := h.desk.run path }

/-- Runs all background fetches, oldest first. -/
def settle (h : HeldDesk ω α) : HeldDesk ω α :=
  h.desk.jobs.foldl run { h with desk := { h.desk with jobs := [] } }

/-- Ends a fetch that is under way: all that wait for it get its outcome. -/
def arrive (d : Desk ω) (f : Flight α) : Desk ω :=
  let (remote, outcome) := Staged.finish d.remote f.path f.state
  Nat.repeat (·.land f.path outcome) f.waiting { d with remote }

/-- Lets a path go, and ends its fetch. -/
def release (h : HeldDesk ω α) (path : String) : HeldDesk ω α :=
  { desk := (h.flights.filter (·.path = path)).foldl arrive h.desk
    held := h.held.filter (· ≠ path)
    flights := h.flights.filter (·.path ≠ path) }

end HeldDesk
end ReviewQueue
