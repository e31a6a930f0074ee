import Mathlib.Data.List.Basic
import ReviewQueue.Remote.Executor

/-!
# Writes that share an executor

Any number of writes are tried on one executor. Each takes its steps in order — it is admitted or
refused, sends its request, hears the outcome, runs its callback and makes the executor idle — and
whatever the others do may come in between. A write that is tried inside a request or inside a
callback is one that comes while another is being sent or reported.

* `SharedExecutor.step`, `SharedExecutor.run` — one step of one write, and many;
* `SharedExecutor.alone_trigger` — the steps of one write, one right after another, are `trigger`;
* `SharedExecutor.Sound` — the invariant: the executor is busy for the one write that holds it, and
  every write was told what its stage says;
* `SharedExecutor.exclusive_run` — at most one write is under way.
-/

namespace ReviewQueue

/-! ## Writes and their steps -/

/-- A write that is tried: its request, and which of the callbacks were given. -/
structure WriteCall where
  request : WriteRequest
  tellsSuccess : Bool
  tellsFailure : Bool
  deriving DecidableEq, Repr

/-- Where a write is. It is under way from its admission until it makes the executor idle. -/
inductive WriteStage where
  /-- Another write was under way. -/
  | refused
  | admitted
  /-- The request is being made. -/
  | sending
  | answered (outcome : Outcome)
  /-- The callback is running, or is over. -/
  | reporting (outcome : Outcome)
  | returned (outcome : Outcome)

/-- What is done for a write. -/
inductive WriteEvent where
  | sent (request : WriteRequest)
  | succeeded (data : Option String)
  | failed (info : List Notice)

/-- What was done for which write, and whether the executor was busy then. -/
structure WriteEntry where
  number : Nat
  busy : Bool
  event : WriteEvent

def WriteStage.isActive : WriteStage → Bool
  | .refused | .returned _ => false
  | .admitted | .sending | .answered _ | .reporting _ => true

/-- How many steps a write still has to take. -/
def WriteStage.left : WriteStage → Nat
  | .refused | .returned _ => 0
  | .reporting _ => 1
  | .answered _ => 2
  | .sending => 3
  | .admitted => 4

/-- Where a write is after its next step, when its request has this outcome if it ends there. -/
def WriteStage.next (outcome : Outcome) : WriteStage → WriteStage
  | .admitted => .sending
  | .sending => .answered outcome
  | .answered outcome => .reporting outcome
  | .reporting outcome => .returned outcome
  | stage => stage

namespace WriteCall

/-- The request as it is sent. -/
def wire (call : WriteCall) : WriteRequest :=
  { call.request with method := call.request.wireMethod }

/-- How a write acts when its request has this outcome: all that it does is noted. -/
def actions (call : WriteCall) (number : Nat) (outcome : Outcome) :
    WriteActions (List WriteEntry) where
  send e log request := (log ++ [{ number, busy := e.busy, event := .sent request }], outcome)
  onSuccess :=
    if call.tellsSuccess then
      some fun e log data => log ++ [{ number, busy := e.busy, event := .succeeded data }]
    else none
  onError :=
    if call.tellsFailure then
      some fun e log info => log ++ [{ number, busy := e.busy, event := .failed info }]
    else none

/-- What a write is told of an outcome: by the callback for it, if that was given. -/
def told (call : WriteCall) : Outcome → List WriteEvent
  | .ok data => if call.tellsSuccess then [.succeeded data] else []
  | .error cause => if call.tellsFailure then [.failed cause.info] else []

/-- What was done for a write at a stage: its request was sent once, and then one callback ran. -/
def story (call : WriteCall) : WriteStage → List WriteEvent
  | .refused | .admitted => []
  | .sending | .answered _ => [.sent call.wire]
  | .reporting outcome | .returned outcome => .sent call.wire :: call.told outcome

/-- What a write returned, once it has. -/
def result? (call : WriteCall) : WriteStage → Option (Except WriteError Unit)
  | .refused => some (.error .inFlight)
  | .returned outcome =>
    some ((outcome.map fun _ => ()).mapError (.failed call.request.path))
  | _ => none

end WriteCall

/-- An executor, the writes that were tried on it, and what was done for them. -/
structure SharedExecutor where
  executor : Executor := {}
  calls : List (WriteCall × WriteStage) := []
  log : List WriteEntry := []

/-- What happens next: a write is tried, or one that was takes a step. -/
inductive WriteMove where
  | call (call : WriteCall)
  | go (number : Nat) (outcome : Outcome)

/-- Whether a move is a step of a write. -/
def WriteMove.isStepOf (number : Nat) : WriteMove → Bool
  | .call _ => false
  | .go other _ => other == number

/-- Where a write is after a move. -/
def WriteStage.follow (number : Nat) (stage : WriteStage) : WriteMove → WriteStage
  | .call _ => stage
  | .go other outcome => if other = number then stage.next outcome else stage

namespace SharedExecutor

/-- A write moves on. -/
def set (s : SharedExecutor) (number : Nat) (call : WriteCall) (stage : WriteStage) :
    SharedExecutor :=
  { s with calls := s.calls.set number (call, stage) }

/-- A write takes a step; the outcome is that of its request, if the request ends there. -/
def go (s : SharedExecutor) (number : Nat) (outcome : Outcome) (call : WriteCall) :
    WriteStage → SharedExecutor
  | .admitted =>
    { s.set number call .sending with
      log := ((call.actions number outcome).send s.executor s.log call.wire).1 }
  | .sending => s.set number call (.answered outcome)
  | .answered outcome =>
    { s.set number call (.reporting outcome) with
      log := s.executor.report (call.actions number outcome) s.log outcome }
  | .reporting outcome =>
    { s.set number call (.returned outcome) with executor := s.executor.reset }
  | .refused | .returned _ => s

/-- The executor and its writes after a move. -/
def step (s : SharedExecutor) : WriteMove → SharedExecutor
  | .call call =>
    match s.executor.admit? with
    | none => { s with calls := s.calls ++ [(call, .refused)] }
    | some busy => { s with executor := busy, calls := s.calls ++ [(call, .admitted)] }
  | .go number outcome =>
    match s.calls[number]? with
    | none => s
    | some (call, stage) => s.go number outcome call stage

/-- The executor and its writes after many moves. -/
def run (s : SharedExecutor) (moves : List WriteMove) : SharedExecutor :=
  moves.foldl step s

/-- What was done for one of the writes, the oldest first. -/
def eventsOf (number : Nat) (log : List WriteEntry) : List WriteEvent :=
  (log.filter (·.number == number)).map (·.event)

/-- A write is under way. -/
def Active (s : SharedExecutor) (number : Nat) : Prop :=
  ∃ call stage, s.calls[number]? = some (call, stage) ∧ stage.isActive = true

/-- A write whose steps come one right after another. -/
theorem alone_trigger (e : Executor) (call : WriteCall) (outcome : Outcome) :
    let s := run { executor := e } (.call call :: List.replicate 4 (.go 0 outcome))
    let t := e.trigger (call.actions 0 outcome) [] call.request
    s.executor = t.1 ∧ s.log = t.2.1 ∧
    (s.calls[0]?.bind fun entry => entry.1.result? entry.2) = some t.2.2 := by
  obtain ⟨busy⟩ := e
  cases busy with
  | false => exact ⟨rfl, rfl, rfl⟩
  | true => exact ⟨rfl, rfl, rfl⟩

end SharedExecutor

/-- A write that is tried inside the request or a callback of another does nothing. -/
theorem Executor.trigger_of_busy {e : Executor} (h : e.busy = true) (actions : WriteActions σ)
    (world : σ) (request : WriteRequest) :
    e.trigger actions world request = (e, world, .error .inFlight) := by
  unfold trigger admit?
  rw [h]
  rfl

namespace SharedExecutor

variable {s : SharedExecutor} {holder : Option Nat} {number : Nat} {call : WriteCall}
  {stage : WriteStage}

/-! ## What is noted -/

/-- The log after some events of one write. -/
def note (log : List WriteEntry) (number : Nat) (busy : Bool) (events : List WriteEvent) :
    List WriteEntry :=
  log ++ events.map ({ number, busy, event := · })

theorem note_nil (log : List WriteEntry) (number : Nat) (busy : Bool) :
    note log number busy [] = log := List.append_nil log

theorem eventsOf_note (log : List WriteEntry) (number : Nat) (busy : Bool)
    (events : List WriteEvent) :
    eventsOf number (note log number busy events) = eventsOf number log ++ events := by
  unfold eventsOf note
  rw [List.filter_append, List.map_append]
  congr 1
  induction events with
  | nil => rfl
  | cons event events ih =>
      rw [List.map_cons, List.filter_cons_of_pos (by simp), List.map_cons, ih]

theorem eventsOf_note_of_ne {other : Nat} (h : number ≠ other) (log : List WriteEntry) (busy : Bool)
    (events : List WriteEvent) :
    eventsOf other (note log number busy events) = eventsOf other log := by
  unfold eventsOf note
  rw [List.filter_append, List.map_append]
  have hnone : (events.map ({ number, busy, event := · } : WriteEvent → WriteEntry)).filter
      (·.number == other) = [] := by
    rw [List.filter_eq_nil_iff]
    intro entry hentry
    obtain ⟨event, _, rfl⟩ := List.mem_map.mp hentry
    simpa using h
  rw [hnone]
  exact List.append_nil _

/-- Reporting an outcome notes what the write is told of it. -/
theorem report_eq_note (e : Executor) (log : List WriteEntry) (outcome : Outcome) :
    e.report (call.actions number outcome) log outcome =
      note log number e.busy (call.told outcome) := by
  obtain ⟨request, tellsSuccess, tellsFailure⟩ := call
  cases outcome with
  | ok data =>
      cases tellsSuccess with
      | true => rfl
      | false => exact (List.append_nil log).symm
  | error cause =>
      cases tellsFailure with
      | true => rfl
      | false => exact (List.append_nil log).symm

/-! ## The invariant -/

/-- What holds of the executor between the steps of its writes, when one of them holds it or none
does. -/
structure Sound (s : SharedExecutor) (holder : Option Nat) : Prop where
  busy : s.executor.busy = holder.isSome
  active : ∀ number call stage, s.calls[number]? = some (call, stage) →
    (stage.isActive = true ↔ holder = some number)
  held : ∀ number, holder = some number → number < s.calls.length
  /-- Whatever was done was done for a write that was tried, while the executor was busy. -/
  logged : ∀ entry ∈ s.log, entry.busy = true ∧ entry.number < s.calls.length
  told : ∀ number call stage, s.calls[number]? = some (call, stage) →
    eventsOf number s.log = call.story stage

theorem sound_idle : Sound {} none where
  busy := rfl
  active := fun _ _ _ h => nomatch h
  held := fun _ h => nomatch h
  logged := fun _ h => nomatch h
  told := fun _ _ _ h => nomatch h

/-- Nothing was done for a write that is not there yet. -/
theorem Sound.eventsOf_length (h : s.Sound holder) : eventsOf s.calls.length s.log = [] := by
  unfold eventsOf
  rw [List.map_eq_nil_iff, List.filter_eq_nil_iff]
  intro entry hentry hnumber
  have hlt := (h.logged entry hentry).2
  rw [beq_iff_eq.mp hnumber] at hlt
  exact Nat.lt_irrefl _ hlt

/-- A write that is tried while another is under way is refused. -/
theorem step_call_of_busy (hbusy : s.executor.busy = true) (call : WriteCall) :
    s.step (.call call) = { s with calls := s.calls ++ [(call, .refused)] } := by
  unfold step Executor.admit?
  rw [hbusy]
  rfl

/-- A write that is tried while none is under way is admitted. -/
theorem step_call_of_idle (hidle : s.executor.busy = false) (call : WriteCall) :
    s.step (.call call) =
      { s with executor := { busy := true }, calls := s.calls ++ [(call, .admitted)] } := by
  unfold step Executor.admit?
  rw [hidle]
  rfl

theorem step_go_of_none (hcall : s.calls[number]? = none) (outcome : Outcome) :
    s.step (.go number outcome) = s := by
  simp only [step, hcall]

theorem step_go (hcall : s.calls[number]? = some (call, stage)) (outcome : Outcome) :
    s.step (.go number outcome) = s.go number outcome call stage := by
  simp only [step, hcall]

/-- The writes after one more was tried. -/
theorem getElem?_snoc {calls : List (WriteCall × WriteStage)} {new entry : WriteCall × WriteStage}
    (h : (calls ++ [new])[number]? = some entry) :
    calls[number]? = some entry ∨ number = calls.length ∧ entry = new := by
  by_cases hlt : number < calls.length
  · rw [List.getElem?_append_left hlt] at h
    exact .inl h
  · have hbound := (List.getElem?_eq_some_iff.mp h).1
    rw [List.length_append, List.length_singleton] at hbound
    have hlast : number = calls.length := by omega
    subst hlast
    rw [List.getElem?_concat_length] at h
    exact .inr ⟨rfl, (Option.some.inj h).symm⟩

/-- The invariant when one more write is tried, whether it is refused or comes to hold the
executor. -/
theorem Sound.snoc {executor : Executor} {next : Option Nat} (h : s.Sound holder)
    (hbusy : executor.busy = next.isSome)
    (hold : ∀ number < s.calls.length, holder = some number ↔ next = some number)
    (hnew : stage.isActive = true ↔ next = some s.calls.length)
    (hheld : ∀ number, next = some number → number ≤ s.calls.length)
    (hstory : call.story stage = []) :
    Sound { s with executor, calls := s.calls ++ [(call, stage)] } next := by
  have hlength : (s.calls ++ [(call, stage)]).length = s.calls.length + 1 := List.length_append
  constructor
  case busy => exact hbusy
  case active =>
    intro number other otherStage hother
    rcases getElem?_snoc hother with hthere | ⟨rfl, hlast⟩
    · rw [h.active number other otherStage hthere]
      exact hold number (List.getElem?_eq_some_iff.mp hthere).1
    · cases hlast
      exact hnew
  case held =>
    intro number hnumber
    show number < (s.calls ++ [(call, stage)]).length
    rw [hlength]
    exact Nat.lt_succ_of_le (hheld number hnumber)
  case logged =>
    intro entry hentry
    obtain ⟨hentryBusy, hentryNumber⟩ := h.logged entry hentry
    refine ⟨hentryBusy, ?_⟩
    show entry.number < (s.calls ++ [(call, stage)]).length
    omega
  case told =>
    intro number other otherStage hother
    rcases getElem?_snoc hother with hthere | ⟨rfl, hlast⟩
    · exact h.told number other otherStage hthere
    · cases hlast
      rw [hstory]
      exact h.eventsOf_length

/-- The invariant when the write that holds the executor moves on, and holds it or gives it back. -/
theorem Sound.moveOn {executor : Executor} {next : Option Nat} (h : s.Sound (some number))
    (hcall : s.calls[number]? = some (call, stage)) (after : WriteStage) (events : List WriteEvent)
    (hbusy : executor.busy = next.isSome)
    (hactive : after.isActive = true ↔ next = some number)
    (hothers : ∀ other, next = some other → other = number)
    (hstory : call.story after = call.story stage ++ events) :
    Sound { executor, calls := s.calls.set number (call, after),
            log := note s.log number s.executor.busy events } next := by
  have hlt : number < s.calls.length := (List.getElem?_eq_some_iff.mp hcall).1
  have hset : (s.calls.set number (call, after))[number]? = some (call, after) :=
    List.getElem?_set_self hlt
  constructor
  case busy => exact hbusy
  case active =>
    intro other otherCall otherStage hother
    by_cases hsame : number = other
    · subst hsame
      cases hset.symm.trans hother
      exact hactive
    · have hthere : s.calls[other]? = some (otherCall, otherStage) :=
        (List.getElem?_set_ne hsame).symm.trans hother
      constructor
      · intro hotherActive
        exact absurd (Option.some.inj ((h.active other _ _ hthere).mp hotherActive)) hsame
      · intro hnext
        exact absurd (hothers other hnext).symm hsame
  case held =>
    intro other hnext
    rw [hothers other hnext]
    show number < (s.calls.set number (call, after)).length
    rw [List.length_set]
    exact hlt
  case logged =>
    intro entry hentry
    show entry.busy = true ∧ entry.number < (s.calls.set number (call, after)).length
    rw [List.length_set]
    rcases List.mem_append.mp hentry with hthere | hnoted
    · exact h.logged entry hthere
    · obtain ⟨event, _, rfl⟩ := List.mem_map.mp hnoted
      exact ⟨h.busy, hlt⟩
  case told =>
    intro other otherCall otherStage hother
    show eventsOf other (note s.log number s.executor.busy events) = otherCall.story otherStage
    by_cases hsame : number = other
    · subst hsame
      cases hset.symm.trans hother
      rw [eventsOf_note, h.told number call stage hcall, hstory]
    · have hthere : s.calls[other]? = some (otherCall, otherStage) :=
        (List.getElem?_set_ne hsame).symm.trans hother
      rw [eventsOf_note_of_ne hsame]
      exact h.told other otherCall otherStage hthere

/-- Trying a write keeps the invariant: it is refused if another holds the executor, and holds it
otherwise. -/
theorem Sound.step_call (h : s.Sound holder) (call : WriteCall) :
    ∃ next, (s.step (.call call)).Sound next := by
  cases holder with
  | none =>
      refine ⟨some s.calls.length, ?_⟩
      rw [step_call_of_idle h.busy call]
      refine h.snoc rfl ?_ ⟨fun _ => rfl, fun _ => rfl⟩ ?_ rfl
      · intro number hlt
        refine ⟨fun hnone => (nomatch hnone), fun hsome => ?_⟩
        rw [Option.some.inj hsome] at hlt
        exact absurd hlt (Nat.lt_irrefl number)
      · intro number hnumber
        exact Nat.le_of_eq (Option.some.inj hnumber).symm
  | some holding =>
      refine ⟨some holding, ?_⟩
      have hlt : holding < s.calls.length := h.held holding rfl
      rw [step_call_of_busy h.busy call]
      refine h.snoc h.busy (fun _ _ => Iff.rfl) ?_ ?_ rfl
      · refine ⟨fun hactive => (nomatch hactive), fun hsome => ?_⟩
        rw [Option.some.inj hsome] at hlt
        exact absurd hlt (Nat.lt_irrefl _)
      · intro number hnumber
        rw [← Option.some.inj hnumber]
        exact Nat.le_of_lt hlt

/-- A step of a write keeps the invariant. -/
theorem Sound.step_go (h : s.Sound holder) (number : Nat) (outcome : Outcome) :
    ∃ next, (s.step (.go number outcome)).Sound next := by
  cases hcall : s.calls[number]? with
  | none =>
      refine ⟨holder, ?_⟩
      rw [step_go_of_none hcall]
      exact h
  | some entry =>
      obtain ⟨call, stage⟩ := entry
      rw [SharedExecutor.step_go hcall]
      -- Only the write that holds the executor has a step to take.
      have hactive := h.active number call stage hcall
      have honly : ∀ other, some number = some other → other = number :=
        fun other hsome => (Option.some.inj hsome).symm
      cases stage with
      | refused | returned => exact ⟨holder, h⟩
      | admitted =>
          cases hactive.mp rfl
          exact ⟨some number,
            h.moveOn hcall .sending [.sent call.wire] h.busy ⟨fun _ => rfl, fun _ => rfl⟩ honly rfl⟩
      | sending =>
          cases hactive.mp rfl
          have hnext := h.moveOn hcall (.answered outcome) [] h.busy ⟨fun _ => rfl, fun _ => rfl⟩
            honly rfl
          rw [note_nil] at hnext
          exact ⟨some number, hnext⟩
      | answered result =>
          cases hactive.mp rfl
          have hnext := h.moveOn hcall (.reporting result) (call.told result) h.busy
            ⟨fun _ => rfl, fun _ => rfl⟩ honly rfl
          rw [← report_eq_note] at hnext
          exact ⟨some number, hnext⟩
      | reporting result =>
          cases hactive.mp rfl
          have hidle : s.executor.reset.busy = (none : Option Nat).isSome := rfl
          have hnext := h.moveOn hcall (.returned result) [] hidle
            ⟨fun hreturned => (nomatch hreturned), fun hnone => (nomatch hnone)⟩
            (fun _ hnone => nomatch hnone) (List.append_nil _).symm
          rw [note_nil] at hnext
          exact ⟨none, hnext⟩

/-- From an idle executor on, the invariant holds after any moves. -/
theorem sound_run (h : s.Sound holder) (moves : List WriteMove) :
    ∃ next, (s.run moves).Sound next := by
  induction moves generalizing s holder with
  | nil => exact ⟨holder, h⟩
  | cons move moves ih =>
      cases move with
      | call call =>
          obtain ⟨next, hnext⟩ := h.step_call call
          exact ih hnext
      | go number outcome =>
          obtain ⟨next, hnext⟩ := h.step_go number outcome
          exact ih hnext

/-! ## The course of one write -/

/-- The moves of the other writes leave a write where it is, and its own take it on. -/
theorem calls_step (hcall : s.calls[number]? = some (call, stage)) (move : WriteMove) :
    (s.step move).calls[number]? = some (call, stage.follow number move) := by
  have hlt : number < s.calls.length := (List.getElem?_eq_some_iff.mp hcall).1
  cases move with
  | call other =>
      have hthere (new : WriteCall × WriteStage) :
          (s.calls ++ [new])[number]? = some (call, stage) :=
        (List.getElem?_append_left hlt).trans hcall
      by_cases hbusy : s.executor.busy = true
      · rw [step_call_of_busy hbusy]
        exact hthere (other, .refused)
      · rw [step_call_of_idle (Bool.not_eq_true _ ▸ hbusy)]
        exact hthere (other, .admitted)
  | go other outcome =>
      by_cases hsame : other = number
      · subst hsame
        have hfollow : stage.follow other (.go other outcome) = stage.next outcome := if_pos rfl
        rw [step_go hcall, hfollow]
        cases stage with
        | refused | returned => exact hcall
        | admitted | sending | answered | reporting => exact List.getElem?_set_self hlt
      · have hfollow : stage.follow number (.go other outcome) = stage := if_neg hsame
        rw [hfollow]
        cases hother : s.calls[other]? with
        | none => rw [step_go_of_none hother, hcall]
        | some entry =>
            obtain ⟨otherCall, otherStage⟩ := entry
            rw [step_go hother]
            cases otherStage with
            | refused | returned => exact hcall
            | admitted | sending | answered | reporting =>
                exact (List.getElem?_set_ne hsame).trans hcall

theorem calls_run (hcall : s.calls[number]? = some (call, stage)) (moves : List WriteMove) :
    (s.run moves).calls[number]? = some (call, moves.foldl (WriteStage.follow number) stage) := by
  induction moves generalizing s stage with
  | nil => exact hcall
  | cons move moves ih => exact ih (calls_step hcall move)

/-- A write that was refused stays so. -/
theorem follow_refused (number : Nat) (moves : List WriteMove) :
    moves.foldl (WriteStage.follow number) .refused = .refused := by
  induction moves with
  | nil => rfl
  | cons move moves ih =>
      have hstay : WriteStage.follow number .refused move = .refused := by
        cases move with
        | call => rfl
        | go other outcome => exact ite_self WriteStage.refused
      rw [List.foldl_cons, hstay]
      exact ih

/-- A step of a write that was not refused leaves it one step less to take. -/
theorem left_next (hstage : stage ≠ .refused) (outcome : Outcome) :
    stage.next outcome ≠ .refused ∧ (stage.next outcome).left = stage.left - 1 := by
  cases stage with
  | refused => exact absurd rfl hstage
  | admitted | sending | answered | reporting | returned => exact ⟨nofun, rfl⟩

/-- A write that was not refused returns once it took all its steps, whatever came in between. -/
theorem returned_of_left (number : Nat) (moves : List WriteMove) (hstage : stage ≠ .refused)
    (hleft : stage.left ≤ moves.countP (WriteMove.isStepOf number)) :
    ∃ outcome, moves.foldl (WriteStage.follow number) stage = .returned outcome := by
  induction moves generalizing stage with
  | nil =>
      cases stage with
      | refused => exact absurd rfl hstage
      | returned outcome => exact ⟨outcome, rfl⟩
      | admitted | sending | answered | reporting => exact absurd hleft (Nat.not_succ_le_zero _)
  | cons move moves ih =>
      cases move with
      | call call =>
          rw [List.countP_cons_of_neg (by exact Bool.false_ne_true)] at hleft
          exact ih hstage hleft
      | go other outcome =>
          rw [List.foldl_cons]
          by_cases hown : other = number
          · have hstep : WriteMove.isStepOf number (.go other outcome) = true := beq_iff_eq.mpr hown
            have hfollow : stage.follow number (.go other outcome) = stage.next outcome :=
              if_pos hown
            obtain ⟨hnext, hless⟩ := left_next hstage outcome
            rw [List.countP_cons_of_pos hstep] at hleft
            rw [hfollow]
            exact ih hnext (by omega)
          · have hstep : ¬WriteMove.isStepOf number (.go other outcome) = true :=
              mt beq_iff_eq.mp hown
            have hfollow : stage.follow number (.go other outcome) = stage := if_neg hown
            rw [List.countP_cons_of_neg hstep] at hleft
            rw [hfollow]
            exact ih hstage hleft

/-! ## One write at a time -/

/-- The executor at any time. -/
structure Exclusive (s : SharedExecutor) : Prop where
  /-- At most one write is between its admission and the moment it makes the executor idle. -/
  single : ∀ first second, s.Active first → s.Active second → first = second
  busy : s.executor.busy = true ↔ ∃ number, s.Active number
  /-- A write that is tried while none is under way is admitted. -/
  admitted : (¬∃ number, s.Active number) → ∀ call,
    (s.step (.call call)).calls = s.calls ++ [(call, .admitted)]
  /-- A write that is tried while another is under way is refused, and nothing is ever done for
  it. -/
  refused : (∃ number, s.Active number) → ∀ call later,
    s.step (.call call) = { s with calls := s.calls ++ [(call, .refused)] } ∧
    (s.run (.call call :: later)).calls[s.calls.length]? = some (call, .refused) ∧
    eventsOf s.calls.length (s.run (.call call :: later)).log = []
  /-- So is one that is tried by a request or a callback that is running. -/
  reentrant : (∃ number, s.Active number) → ∀ (σ : Type) (actions : WriteActions σ) (world : σ)
    (request : WriteRequest),
    s.executor.trigger actions world request = (s.executor, world, .error .inFlight)
  /-- A write that was admitted returns once it took its steps, whatever came in between. -/
  returns : ∀ number call, s.calls[number]? = some (call, .admitted) → ∀ later,
    4 ≤ later.countP (WriteMove.isStepOf number) →
    ∃ outcome, (s.run later).calls[number]? = some (call, .returned outcome)
  /-- Every write was told what its stage says: its request was sent once, and then the callback
  for its outcome ran, if that was given. -/
  told : ∀ number call stage, s.calls[number]? = some (call, stage) →
    eventsOf number s.log = call.story stage
  /-- Whatever was done was done for a write that was tried, while the executor was busy. -/
  logged : ∀ entry ∈ s.log, entry.busy = true ∧ entry.number < s.calls.length

/-- The write that holds the executor is the one that is under way. -/
theorem Sound.active_iff (h : s.Sound holder) (number : Nat) :
    s.Active number ↔ holder = some number := by
  constructor
  · rintro ⟨call, stage, hcall, hactive⟩
    exact (h.active number call stage hcall).mp hactive
  · intro hheld
    have hlt := h.held number hheld
    have hcall := List.getElem?_eq_getElem hlt
    exact ⟨_, _, hcall, (h.active number _ _ hcall).mpr hheld⟩

theorem Sound.busy_iff (h : s.Sound holder) :
    s.executor.busy = true ↔ ∃ number, s.Active number := by
  rw [h.busy, Option.isSome_iff_exists]
  exact exists_congr fun number => (h.active_iff number).symm

/-- An executor that any number of writes share admits one at a time, and tells each of them what
became of it. -/
theorem exclusive_run (moves : List WriteMove) : (run {} moves).Exclusive := by
  obtain ⟨holder, hsound⟩ := sound_run sound_idle moves
  generalize run {} moves = s at hsound
  constructor
  case single =>
    intro first second hfirst hsecond
    have hheld := (hsound.active_iff first).mp hfirst
    have hheld' := (hsound.active_iff second).mp hsecond
    exact Option.some.inj (hheld.symm.trans hheld')
  case busy => exact hsound.busy_iff
  case admitted =>
    intro hnone call
    have hidle : s.executor.busy = false := by
      rw [← Bool.not_eq_true, hsound.busy_iff]
      exact hnone
    rw [step_call_of_idle hidle]
  case refused =>
    intro hactive call later
    have hstep := step_call_of_busy (hsound.busy_iff.mpr hactive) call
    have hnew : (s.step (.call call)).calls[s.calls.length]? = some (call, .refused) := by
      rw [hstep]
      exact List.getElem?_concat_length
    have hlast : (s.run (.call call :: later)).calls[s.calls.length]? = some (call, .refused) := by
      rw [← follow_refused s.calls.length later]
      exact calls_run hnew later
    obtain ⟨_, hlater⟩ := sound_run hsound (.call call :: later)
    exact ⟨hstep, hlast, hlater.told _ _ _ hlast⟩
  case reentrant =>
    intro hactive σ actions world request
    exact Executor.trigger_of_busy (hsound.busy_iff.mpr hactive) actions world request
  case returns =>
    intro number call hcall later hcount
    have hstage : WriteStage.admitted ≠ .refused := nofun
    obtain ⟨outcome, hreturned⟩ := returned_of_left number later hstage hcount
    exact ⟨outcome, by rw [calls_run hcall later, hreturned]⟩
  case told => exact hsound.told
  case logged => exact hsound.logged

end SharedExecutor
end ReviewQueue
