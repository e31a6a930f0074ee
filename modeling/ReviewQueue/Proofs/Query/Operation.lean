import ReviewQueue.Proofs.Query.Desk

/-!
# Operations on a cache that many share

Any number of operations, on any paths, share one cache. Each takes its steps in its own order, and
the steps of the others may come anywhere in between. Requests are not shared here: every fetch has
an outcome of its own.

* `CacheOperation.steps` — the steps of a fetch, of a background fetch and of a store;
* `SharedCache.step`, `SharedCache.run` — one step of one operation, and many;
* `SharedCache.alone_get`, `alone_prefetch`, `alone_refresh`, `alone_set` — an operation whose steps
  come one right after another does what the desk does;
* `CacheTask.Fit` — what holds of an operation between its steps: it is under way as long as it has
  something open.
-/

namespace ReviewQueue

/-! ## Operations and their steps -/

/-- A step of an operation. -/
inductive CacheStep where
  /-- Goes on only if no fetch of the path is pending. -/
  | ifIdle
  /-- Goes on only if something was stored under the path. -/
  | ifStored
  | begin
  /-- The fetch is done, and its outcome is stored. -/
  | store
  | put (data : Option String)
  | conclude
  deriving DecidableEq, Repr

/-- Whether an operation goes on with a step. -/
def CacheStep.passes (c : Cache) (path : String) : CacheStep → Bool
  | .ifIdle => c.wantsPrefetch path
  | .ifStored => c.wantsRefresh path
  | _ => true

/-- What a step does under its path. -/
inductive CacheEffect where
  | begun
  | stored (now : Timestamp) (outcome : Outcome)
  | concluded

/-- What is done at a step, when the fetch that may end there has this outcome. -/
def CacheStep.effect? (now : Timestamp) (outcome : Outcome) : CacheStep → Option CacheEffect
  | .ifIdle | .ifStored => none
  | .begin => some .begun
  | .store => some (.stored now outcome)
  | .put data => some (.stored now (.ok data))
  | .conclude => some .concluded

/-- The cache after something was done under a path. -/
def Cache.after (c : Cache) (path : String) : CacheEffect → Cache
  | .begun => c.begin path
  | .stored now outcome => c.store now path outcome
  | .concluded => c.conclude path

/-- What is asked of a cache. A refresh of several paths is a refresh of each of them. -/
inductive CacheOperation where
  | get
  | prefetch
  | refresh
  | set (data : Option String)
  deriving DecidableEq, Repr

namespace CacheOperation

/-- A fetch. -/
def fetch : List CacheStep := [.begin, .store, .conclude]

/-- A fetch in the background. -/
def background : List CacheStep := .begin :: fetch ++ [.conclude]

/-- The steps of an operation, in its own order. -/
def steps : CacheOperation → List CacheStep
  | .get => fetch
  | .prefetch => .ifIdle :: background
  | .refresh => .ifStored :: background
  | .set data => [.put data]

end CacheOperation

/-- An operation on a path that was asked for: the steps that it took, and those to come. -/
structure CacheTask where
  path : String
  done : List CacheStep := []
  rest : List CacheStep
  deriving DecidableEq, Repr

namespace CacheTask

/-- An operation before its first step. -/
def of (operation : CacheOperation) (path : String) : CacheTask :=
  { path, rest := operation.steps }

/-- The operation has begun and is not over. -/
def UnderWay (t : CacheTask) : Prop := .begin ∈ t.done ∧ t.rest ≠ []

/-- How many of its beginnings it has not concluded. -/
def depth (t : CacheTask) : Nat := t.done.count .begin - t.done.count .conclude

/-- The operation after its next step. -/
def advance (t : CacheTask) (step : CacheStep) (rest : List CacheStep) : CacheTask :=
  { t with done := t.done ++ [step], rest }

/-- The operation when it does not go on. -/
def giveUp (t : CacheTask) : CacheTask := { t with rest := [] }

end CacheTask

/-- A cache, the operations that were asked of it, and what they did, the latest first. -/
structure SharedCache where
  cache : Cache := {}
  tasks : List CacheTask := []
  history : List (String × CacheEffect) := []

/-- What happens next: an operation is asked for, or one that was takes a step. -/
inductive CacheMove where
  | start (operation : CacheOperation) (path : String)
  | go (number : Nat) (now : Timestamp) (outcome : Outcome)

namespace SharedCache

/-- One of the operations does what its step is for. -/
def record (s : SharedCache) (path : String) : Option CacheEffect → SharedCache
  | none => s
  | some effect =>
    { s with cache := s.cache.after path effect, history := (path, effect) :: s.history }

/-- An operation takes its next step, or does not go on. -/
def advance (s : SharedCache) (number : Nat) (now : Timestamp) (outcome : Outcome) (t : CacheTask) :
    SharedCache :=
  match t.rest with
  | [] => s
  | step :: rest =>
    if step.passes s.cache t.path then
      { s.record t.path (step.effect? now outcome) with
        tasks := s.tasks.set number (t.advance step rest) }
    else
      { s with tasks := s.tasks.set number t.giveUp }

/-- The cache and its operations after a move. -/
def step (s : SharedCache) : CacheMove → SharedCache
  | .start operation path => { s with tasks := s.tasks ++ [.of operation path] }
  | .go number now outcome =>
    match s.tasks[number]? with
    | none => s
    | some t => s.advance number now outcome t

/-- The cache and its operations after many moves. -/
def run (s : SharedCache) (moves : List CacheMove) : SharedCache :=
  moves.foldl step s

/-- The path of the operation that a move is about. -/
def path? (s : SharedCache) : CacheMove → Option String
  | .start _ path => some path
  | .go number _ _ => s.tasks[number]?.map (·.path)

/-- What was done under a path, the latest first. -/
def effects (s : SharedCache) (path : String) : List CacheEffect :=
  (s.history.filter (·.1 == path)).map (·.2)

theorem step_go_of_none {s : SharedCache} {number : Nat} (h : s.tasks[number]? = none)
    (now : Timestamp) (outcome : Outcome) : s.step (.go number now outcome) = s := by
  simp only [step, h]

theorem step_go {s : SharedCache} {number : Nat} {t : CacheTask} (h : s.tasks[number]? = some t)
    (now : Timestamp) (outcome : Outcome) :
    s.step (.go number now outcome) = s.advance number now outcome t := by
  simp only [step, h]

/-- An operation that is asked for and takes its steps with nothing in between. -/
def alone (c : Cache) (operation : CacheOperation) (path : String) (now : Timestamp)
    (outcome : Outcome) : SharedCache :=
  run { cache := c } (.start operation path :: operation.steps.map fun _ => .go 0 now outcome)

theorem alone_set (c : Cache) (path : String) (data : Option String) (now : Timestamp)
    (outcome : Outcome) : (alone c (.set data) path now outcome).cache = c.set now path data := rfl

section Desk

variable [Remote ω] (d : Desk ω) (path : String)

theorem alone_get :
    (alone d.cache .get path (Remote.now (Remote.fetch d.remote path).1)
      (Remote.fetch d.remote path).2).cache = (d.get path).1.cache := rfl

theorem alone_prefetch :
    (alone d.cache .prefetch path (Remote.now (Remote.fetch d.remote path).1)
      (Remote.fetch d.remote path).2).cache =
      if d.cache.wantsPrefetch path then ((d.prefetch path).run path).cache else d.cache := by
  -- the first step looks, and from then on the steps are those of the desk
  show (run (if d.cache.wantsPrefetch path then _ else _) _).cache = _
  by_cases hlook : d.cache.wantsPrefetch path = true
  · rw [if_pos hlook, if_pos hlook, Desk.prefetch, if_pos hlook]
    rfl
  · rw [if_neg hlook, if_neg hlook]
    rfl

theorem alone_refresh :
    (alone d.cache .refresh path (Remote.now (Remote.fetch d.remote path).1)
      (Remote.fetch d.remote path).2).cache =
      if d.cache.wantsRefresh path then ((d.refresh [path]).run path).cache else d.cache := by
  show (run (if d.cache.wantsRefresh path then _ else _) _).cache = _
  by_cases hlook : d.cache.wantsRefresh path = true
  · rw [if_pos hlook, if_pos hlook, Desk.refresh, List.foldl_cons, if_pos hlook]
    rfl
  · rw [if_neg hlook, if_neg hlook]
    rfl

end Desk

end SharedCache

/-! ## What an operation has open -/

/-- How many beginnings an operation has open after a step, when it had some open before it. -/
def CacheStep.shift : CacheStep → Nat → Nat
  | .begin, depth => depth + 1
  | .conclude, depth => depth - 1
  | _, depth => depth

/-- The steps conclude all that they and the steps before them began, and the last beginning is
concluded at the very end. An operation looks before it begins. -/
inductive CacheStep.Nested : Nat → List CacheStep → Prop
  | over : Nested 0 []
  | ifIdle : Nested 0 rest → Nested 0 (.ifIdle :: rest)
  | ifStored : Nested 0 rest → Nested 0 (.ifStored :: rest)
  | begin : Nested (depth + 1) rest → Nested depth (.begin :: rest)
  | store : Nested depth rest → Nested depth (.store :: rest)
  | put : Nested depth rest → Nested depth (.put data :: rest)
  | conclude : Nested (depth + 1) rest → Nested (depth + 2) (.conclude :: rest)
  | last : Nested 1 [.conclude]

open CacheStep (Nested)

namespace CacheStep.Nested

variable {depth : Nat} {step : CacheStep} {rest : List CacheStep}

theorem ne_nil (h : Nested depth rest) (hdepth : 0 < depth) : rest ≠ [] := by
  rintro rfl
  cases h
  exact Nat.lt_irrefl 0 hdepth

theorem pos_of_conclude (h : Nested depth (.conclude :: rest)) : 0 < depth := by
  cases h <;> omega

theorem tail (h : Nested depth (step :: rest)) : Nested (step.shift depth) rest := by
  cases h with
  | last => exact .over
  | ifIdle h | ifStored h | begin h | store h | put h | conclude h => exact h

/-- Something is open after a step if something was before it or begins at it, and more is to
come. -/
theorem shift_pos (h : Nested depth (step :: rest)) :
    0 < step.shift depth ↔ (0 < depth ∨ step = .begin) ∧ rest ≠ [] := by
  cases h with
  | ifIdle | ifStored => simp [shift]
  | begin h => simp [shift, h.ne_nil (Nat.succ_pos depth)]
  | store h | put h =>
      show 0 < depth ↔ _
      constructor
      · intro hdepth
        exact ⟨.inl hdepth, h.ne_nil hdepth⟩
      · rintro ⟨hdepth | hstep, _⟩
        · exact hdepth
        · cases hstep
  | conclude h => simp [shift, h.ne_nil (Nat.succ_pos _)]
  | last => simp [shift]

end CacheStep.Nested

namespace CacheOperation

theorem nested_fetch : Nested 0 fetch := .begin (.store .last)

theorem nested_background : Nested 0 background := .begin (.begin (.store (.conclude .last)))

theorem nested_steps (operation : CacheOperation) : Nested 0 operation.steps := by
  cases operation with
  | get => exact nested_fetch
  | prefetch => exact .ifIdle nested_background
  | refresh => exact .ifStored nested_background
  | set data => exact .put .over

end CacheOperation

namespace CacheTask

/-- What holds of an operation between its steps. -/
structure Fit (t : CacheTask) : Prop where
  counted : t.done.count .conclude ≤ t.done.count .begin
  nested : Nested t.depth t.rest
  underWay : 0 < t.depth ↔ t.UnderWay

theorem fit_of (operation : CacheOperation) (path : String) : (of operation path).Fit where
  counted := Nat.le_refl 0
  nested := operation.nested_steps
  underWay := by simp [UnderWay, of, depth]

variable {t : CacheTask} {step : CacheStep} {rest : List CacheStep}

/-- An operation that does not go on has nothing open. -/
theorem Fit.giveUp {c : Cache} (h : t.Fit) (hrest : t.rest = step :: rest)
    (hlook : step.passes c t.path = false) : t.giveUp.Fit := by
  have hnested := h.nested
  rw [hrest] at hnested
  -- only a look can end an operation, and it looks before it begins
  have hzero : t.depth = 0 := by
    generalize t.depth = depth at hnested
    cases hnested with
    | ifIdle | ifStored => rfl
    | begin | store | put | conclude | last => cases hlook
  refine ⟨h.counted, ?_, ?_⟩
  · show Nested t.depth []
    rw [hzero]
    exact .over
  · show 0 < t.depth ↔ .begin ∈ t.done ∧ ([] : List CacheStep) ≠ []
    simp [hzero]

theorem depth_advance (h : t.Fit) (step : CacheStep) (rest : List CacheStep) :
    (t.advance step rest).depth = step.shift t.depth := by
  have hcount := h.counted
  unfold depth advance
  simp only [List.count_append, List.count_singleton]
  cases step with
  | begin =>
      show t.done.count .begin + 1 - t.done.count .conclude =
        t.done.count .begin - t.done.count .conclude + 1
      omega
  | conclude =>
      show t.done.count .begin - (t.done.count .conclude + 1) =
        t.done.count .begin - t.done.count .conclude - 1
      omega
  | ifIdle | ifStored | store | put => rfl

theorem Fit.advance (h : t.Fit) (hrest : t.rest = step :: rest) : (t.advance step rest).Fit := by
  have hcount := h.counted
  have hnested := h.nested
  rw [hrest] at hnested
  -- steps are left, so something is open exactly when it has begun
  have hbegun : 0 < t.depth ↔ .begin ∈ t.done := by
    rw [h.underWay]
    exact and_iff_left (by rw [hrest]; exact List.cons_ne_nil _ _)
  constructor
  case counted =>
    show (t.done ++ [step]).count .conclude ≤ (t.done ++ [step]).count .begin
    simp only [List.count_append, List.count_singleton]
    by_cases hstep : step = .conclude
    · subst hstep
      -- what is concluded here is among the beginnings that are open
      have hopen : 0 < t.done.count .begin - t.done.count .conclude := hnested.pos_of_conclude
      show t.done.count .conclude + 1 ≤ t.done.count .begin
      omega
    · rw [beq_false_of_ne hstep]
      exact Nat.le_add_right_of_le hcount
  case nested =>
    rw [depth_advance h]
    exact hnested.tail
  case underWay =>
    rw [depth_advance h, hnested.shift_pos, hbegun]
    show _ ↔ .begin ∈ t.done ++ [step] ∧ rest ≠ []
    rw [List.mem_append, List.mem_singleton, eq_comm (a := step)]

end CacheTask

end ReviewQueue
