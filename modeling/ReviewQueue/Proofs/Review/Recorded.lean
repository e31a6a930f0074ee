import ReviewQueue.Proofs.Query.Browsed
import ReviewQueue.Review.Reviewer

/-!
# Recorded calls

What a program asks of a service is seen in the calls that the service gets. `Recorded` puts a
record of them beside any service, and passes every call on to it.

* `RemoteCall.answers`, `RemoteCall.writes`, `RemoteCall.saves` — what is read out of a record;
* `Desk.Browsed.writes`, `Desk.Browsed.view` — reading sends no write, and leaves alone what every
  fetch leaves alone.
-/

namespace ReviewQueue

/-- A call of a service, with its outcome. -/
inductive RemoteCall where
  | fetched (path : String) (outcome : Outcome)
  | sent (method path : String) (body : Option String) (outcome : Outcome)
  deriving DecidableEq

namespace RemoteCall

/-- The answer to a fetch of a path. -/
def answer? (path : String) : RemoteCall → Option Outcome
  | .fetched other outcome => if other = path then some outcome else none
  | .sent .. => none

/-- Whether a call is a write. -/
def isWrite : RemoteCall → Bool
  | .fetched .. => false
  | .sent .. => true

/-- Whether a call is a write that succeeded. -/
def isSave : RemoteCall → Bool
  | .sent _ _ _ (.ok _) => true
  | _ => false

/-- The answers to the fetches of a path, in the order of the calls. -/
def answers (path : String) (calls : List RemoteCall) : List Outcome :=
  calls.filterMap (answer? path)

/-- The writes. -/
def writes (calls : List RemoteCall) : List RemoteCall := calls.filter isWrite

/-- The number of writes that succeeded. -/
def saves (calls : List RemoteCall) : Nat := calls.countP isSave

section Lists

variable (path : String) (outcome : Outcome) (calls : List RemoteCall)

@[simp] theorem answers_fetched_self :
    answers path (.fetched path outcome :: calls) = outcome :: answers path calls := by
  simp [answers, answer?]

theorem answers_fetched_of_ne {path other : String} (h : other ≠ path) :
    answers path (.fetched other outcome :: calls) = answers path calls := by
  simp [answers, answer?, h]

@[simp] theorem answers_sent (method other : String) (body : Option String) :
    answers path (.sent method other body outcome :: calls) = answers path calls := rfl

@[simp] theorem writes_fetched : writes (.fetched path outcome :: calls) = writes calls := rfl

@[simp] theorem writes_sent (method : String) (body : Option String) :
    writes (.sent method path body outcome :: calls) =
      .sent method path body outcome :: writes calls := rfl

@[simp] theorem saves_fetched : saves (.fetched path outcome :: calls) = saves calls :=
  List.countP_cons_of_neg (by simp [isSave])

@[simp] theorem saves_sent_ok (method : String) (body data : Option String) :
    saves (.sent method path body (.ok data) :: calls) = saves calls + 1 :=
  List.countP_cons_of_pos rfl

@[simp] theorem saves_sent_error (method : String) (body : Option String) (e : RequestError) :
    saves (.sent method path body (.error e) :: calls) = saves calls :=
  List.countP_cons_of_neg (by simp [isSave])

end Lists

end RemoteCall

/-- A service with a record of its calls, the latest first. -/
structure Recorded (ω : Type) where
  service : ω
  calls : List RemoteCall := []

instance [Remote ω] : Remote (Recorded ω) where
  fetch w path :=
    let (service, outcome) := Remote.fetch w.service path
    (⟨service, .fetched path outcome :: w.calls⟩, outcome)
  send w method path body :=
    let (service, outcome) := Remote.send w.service method path body
    (⟨service, .sent method path body outcome :: w.calls⟩, outcome)
  now w := Remote.now w.service

namespace Desk

variable [Remote ω] {d d' : Desk (Recorded ω)}

/-- The calls that were made through a desk, the latest first. -/
abbrev calls (d : Desk (Recorded ω)) : List RemoteCall := d.remote.calls

theorem Fetched.calls {path : String} (h : d.Fetched path d') :
    d'.calls = .fetched path (Remote.fetch d.remote path).2 :: d.calls := by
  unfold Desk.calls
  rw [h.remote]
  rfl

/-- Reading sends no write. -/
theorem Browsed.writes (h : d.Browsed d') :
    RemoteCall.writes d'.calls = RemoteCall.writes d.calls := by
  refine h.preserves (P := fun e => RemoteCall.writes e.calls = RemoteCall.writes d.calls)
    (fun halike ha => ?_) (fun hfetched ha => ?_) rfl
  · rw [Desk.calls, halike.remote]
    exact ha
  · rw [hfetched.calls, RemoteCall.writes_fetched]
    exact ha

/-- What every fetch leaves alone is left alone by reading. -/
theorem Browsed.view {view : ω → α} (hview : ∀ w path, view (Remote.fetch w path).1 = view w)
    (h : d.Browsed d') : view d'.remote.service = view d.remote.service := by
  refine h.preserves (P := fun e => view e.remote.service = view d.remote.service)
    (fun halike ha => ?_) (fun hfetched ha => ?_) rfl
  · rw [halike.remote]
    exact ha
  · rw [hfetched.remote]
    exact (hview _ _).trans ha

end Desk

/-- A reviewer at the beginning, at a service whose calls are recorded. -/
def Reviewer.fresh (terminal : Terminal) (service : ω) : Reviewer (Recorded ω) :=
  { terminal, desk := { remote := { service } } }

/-! ## A service to look at -/

/-- A service with fixed pages, which takes every write. -/
structure Pages where
  pages : List (String × String)

instance : Remote Pages where
  fetch p path :=
    (p, match p.pages.lookup path with
      | some body => .ok (some body)
      | none => .error (.other "no such page"))
  send p _ _ _ := (p, .ok none)
  now _ := .zero

end ReviewQueue
