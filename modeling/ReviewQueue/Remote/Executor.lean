import ReviewQueue.Remote.Error

/-! The executor of writes, which admits one at a time.

A write is four steps: it is admitted when the executor is idle, sends its request, reports the
outcome to one of two callbacks, and only then makes the executor idle again. Request and callbacks
see the busy executor, so a write that is tried in either of them is refused. -/

namespace ReviewQueue

/-- The executor: whether a write is under way. -/
structure Executor where
  busy : Bool := false
  deriving DecidableEq, Repr, Inhabited

/-- A write. Without a method it is a `PUT`. -/
structure WriteRequest where
  method : String := ""
  path : String
  body : Option String := none
  deriving DecidableEq, Repr

/-- The method with which a write is sent. -/
def WriteRequest.wireMethod (r : WriteRequest) : String :=
  if r.method = "" then "PUT" else r.method

/-- Why a write failed. -/
inductive WriteError where
  /-- Another write was under way. -/
  | inFlight
  /-- The request failed. -/
  | failed (path : String) (cause : RequestError)
  deriving DecidableEq, Repr

/-- The wording of a write error. -/
def WriteError.message : WriteError → String
  | .inFlight => "mutation already in flight"
  | .failed path cause => "mutate " ++ path ++ ": " ++ cause.message

/-- How a write acts on a world: its request, and its callbacks, which may be missing. Each sees the
executor as it is at that moment. -/
structure WriteActions (σ : Type) where
  send : Executor → σ → WriteRequest → σ × Outcome
  onSuccess : Option (Executor → σ → Option String → σ) := none
  onError : Option (Executor → σ → List Notice → σ) := none

namespace Executor

/-- Admits a write, if none is under way. -/
def admit? (e : Executor) : Option Executor :=
  if e.busy then none else some { e with busy := true }

/-- Ends a write. -/
def reset (e : Executor) : Executor :=
  { e with busy := false }

/-- Reports an outcome to the callback for it. -/
def report (e : Executor) (actions : WriteActions σ) (world : σ) : Outcome → σ
  | .ok data => (actions.onSuccess.map fun f => f e world data).getD world
  | .error cause => (actions.onError.map fun f => f e world cause.info).getD world

/-- Runs a write. -/
def trigger (e : Executor) (actions : WriteActions σ) (world : σ) (request : WriteRequest) :
    Executor × σ × Except WriteError Unit :=
  match e.admit? with
  | none => (e, world, .error .inFlight)
  | some busy =>
    let (world, outcome) := actions.send busy world { request with method := request.wireMethod }
    let world := busy.report actions world outcome
    (busy.reset, world, outcome.map (fun _ => ()) |>.mapError (.failed request.path))

end Executor
end ReviewQueue
