import ReviewQueue.Proofs.Query.Operation

/-!
# A cache that many share

Whatever operations share a cache, and however their steps fall, it shows of every path what was
done under that path: as many fetches are pending as were begun and not concluded, and a failure
takes away no data.

* `CacheEffect.known?` — what is known of a path, by what was done under it;
* `SharedCache.Moved`, `SharedCache.moved_step` — all that a move can do;
* `SharedCache.Sound`, `SharedCache.sound_run` — the invariant: as many fetches of a path are
  pending as the operations on it have open;
* `SharedCache.accounted_run` — what the cache shows of a path.
-/

namespace ReviewQueue

/-! ## The cache as its history made it -/

namespace CacheEffect

/-- The outcome that was stored, if any was. -/
def outcome? : CacheEffect → Option Outcome
  | .stored _ outcome => some outcome
  | _ => none

/-- The data that was stored and when, if any was. -/
def brought? : CacheEffect → Option (Timestamp × Option String)
  | .stored now (.ok data) => some (now, data)
  | _ => none

def isBegun : CacheEffect → Bool
  | .begun => true
  | _ => false

def isConcluded : CacheEffect → Bool
  | .concluded => true
  | _ => false

/-- What is known of a path under which this was done, the latest first: the data that was last
brought, and the error of the last outcome if that was a failure. -/
def known? (effects : List CacheEffect) : Option CacheEntry :=
  (effects.findSome? outcome?).map fun last =>
    { data := (effects.findSome? brought?).bind (·.2)
      fetchedAt := (effects.findSome? brought?).map (·.1)
      error := match last with
        | .ok _ => none
        | .error cause => some cause }

/-- Where no outcome was stored, no data was. -/
theorem brought?_eq_none {effects : List CacheEffect} (h : effects.findSome? outcome? = none) :
    effects.findSome? brought? = none := by
  rw [List.findSome?_eq_none_iff] at h ⊢
  intro effect heffect
  have hnone := h effect heffect
  cases effect with
  | stored now outcome => cases hnone
  | begun => rfl
  | concluded => rfl

theorem known?_stored (now : Timestamp) (outcome : Outcome) (effects : List CacheEffect) :
    known? (.stored now outcome :: effects) =
      some (((known? effects).getD {}).after now outcome) := by
  cases outcome with
  | ok data => rfl
  | error cause =>
      show some { data := (effects.findSome? brought?).bind (·.2), error := some cause,
                  fetchedAt := (effects.findSome? brought?).map (·.1) } =
        some { (known? effects).getD {} with error := some cause }
      unfold known?
      cases hlast : effects.findSome? outcome? with
      | some last => rfl
      | none =>
          rw [brought?_eq_none hlast]
          rfl

end CacheEffect

namespace Cache

/-- What was done under one path leaves the pending fetches of another. -/
theorem pendingOf_after_of_ne (c : Cache) {path other : String} (h : other ≠ path)
    (effect : CacheEffect) : (c.after path effect).pendingOf other = c.pendingOf other := by
  cases effect with
  | begun => exact pendingOf_begin_of_ne c h
  | stored now outcome => rfl
  | concluded => exact pendingOf_conclude_of_ne c h

/-- What was done under one path leaves what is known of another. -/
theorem entry?_after_of_ne (c : Cache) {path other : String} (h : other ≠ path)
    (effect : CacheEffect) : Cache.entry? (c.after path effect) other = c.entry? other := by
  cases effect with
  | begun => rfl
  | stored now outcome => exact entry?_store_of_ne c now h outcome
  | concluded => exact entry?_conclude c path other

/-- What is done under a path adds to what is known of it. -/
theorem entry?_after {c : Cache} {path : String} {effects : List CacheEffect}
    (h : c.entry? path = CacheEffect.known? effects) (effect : CacheEffect) :
    Cache.entry? (c.after path effect) path = CacheEffect.known? (effect :: effects) := by
  cases effect with
  | begun => exact h
  | stored now outcome =>
      rw [CacheEffect.known?_stored, ← h]
      exact entry?_store c now path outcome
  | concluded => exact (entry?_conclude c path path).trans h

end Cache

/-! ## The invariant -/

/-- How much an operation has open on a path. -/
def CacheTask.openOn (path : String) (t : CacheTask) : Nat :=
  if t.path = path then t.depth else 0

/-- How much operations have open on a path together. -/
def openOn (path : String) : List CacheTask → Nat
  | [] => 0
  | t :: tasks => t.openOn path + openOn path tasks

theorem openOn_append_cons (path : String) (before : List CacheTask) (t : CacheTask)
    (after : List CacheTask) :
    openOn path (before ++ t :: after) =
      openOn path before + (t.openOn path + openOn path after) := by
  induction before with
  | nil => exact (Nat.zero_add _).symm
  | cons first before ih =>
      show first.openOn path + openOn path (before ++ t :: after) =
        first.openOn path + openOn path before + (t.openOn path + openOn path after)
      rw [ih, Nat.add_assoc]

theorem openOn_pos_iff {tasks : List CacheTask} (h : ∀ t ∈ tasks, t.Fit) (path : String) :
    0 < openOn path tasks ↔ ∃ t ∈ tasks, t.path = path ∧ t.UnderWay := by
  induction tasks with
  | nil => simp [openOn]
  | cons t tasks ih =>
      have hfirst : 0 < t.openOn path ↔ t.path = path ∧ t.UnderWay := by
        unfold CacheTask.openOn
        by_cases hpath : t.path = path
        · simp [hpath, (h t List.mem_cons_self).underWay]
        · simp [hpath]
      have hrest := ih fun other hother => h other (List.mem_cons_of_mem t hother)
      have hsum : openOn path (t :: tasks) = t.openOn path + openOn path tasks := rfl
      rw [hsum, Nat.add_pos_iff_pos_or_pos, hfirst, hrest]
      simp only [List.mem_cons, exists_eq_or_imp]

/-- An element of a list, with what comes before and after it. -/
theorem exists_split_of_getElem? {l : List α} {n : Nat} {a : α} (h : l[n]? = some a) :
    ∃ before after, l = before ++ a :: after ∧ ∀ b, l.set n b = before ++ b :: after := by
  obtain ⟨hn, rfl⟩ := List.getElem?_eq_some_iff.mp h
  refine ⟨l.take n, l.drop (n + 1), ?_, ?_⟩
  · simp
  · intro b
    rw [List.set_eq_take_append_cons_drop, if_pos hn]

namespace SharedCache

variable {s : SharedCache}

/-- All that a move can do, with the path that it is about. -/
inductive Moved (s : SharedCache) : Option String → SharedCache → Prop
  | idle (path? : Option String) : Moved s path? s
  | started (operation : CacheOperation) (path : String) :
      Moved s (some path) { s with tasks := s.tasks ++ [.of operation path] }
  | gaveUp (t : CacheTask) (before after : List CacheTask) (look : CacheStep)
      (rest : List CacheStep) (htasks : s.tasks = before ++ t :: after)
      (hrest : t.rest = look :: rest) (hlook : look.passes s.cache t.path = false) :
      Moved s (some t.path) { s with tasks := before ++ t.giveUp :: after }
  | advanced (t : CacheTask) (before after : List CacheTask) (step : CacheStep)
      (rest : List CacheStep) (now : Timestamp) (outcome : Outcome)
      (htasks : s.tasks = before ++ t :: after) (hrest : t.rest = step :: rest) :
      Moved s (some t.path) { s.record t.path (step.effect? now outcome) with
                              tasks := before ++ t.advance step rest :: after }

theorem moved_step (s : SharedCache) (move : CacheMove) : s.Moved (s.path? move) (s.step move) := by
  cases move with
  | start operation path => exact .started operation path
  | go number now outcome =>
      cases htask : s.tasks[number]? with
      | none =>
          rw [step_go_of_none htask]
          exact .idle _
      | some t =>
          have hpath : s.path? (.go number now outcome) = some t.path :=
            congrArg (Option.map CacheTask.path) htask
          obtain ⟨before, after, htasks, hset⟩ := exists_split_of_getElem? htask
          rw [step_go htask, hpath]
          unfold advance
          split
          case h_1 => exact .idle (some t.path)
          case h_2 step rest hrest =>
            rw [hset, hset]
            split
            case isTrue => exact .advanced t before after step rest now outcome htasks hrest
            case isFalse hlook =>
              exact .gaveUp t before after step rest htasks hrest (Bool.not_eq_true _ ▸ hlook)

/-- As many fetches of a path are pending as were begun and not yet concluded. -/
def Balanced (s : SharedCache) (path : String) : Prop :=
  s.cache.pendingOf path + (s.effects path).countP CacheEffect.isConcluded =
    (s.effects path).countP CacheEffect.isBegun

/-- What holds of the cache between the steps of its operations. -/
structure Sound (s : SharedCache) : Prop where
  fit : ∀ t ∈ s.tasks, t.Fit
  known : ∀ path, s.cache.entry? path = CacheEffect.known? (s.effects path)
  counted : ∀ path, s.cache.pendingOf path = openOn path s.tasks
  balanced : ∀ path, s.Balanced path

theorem sound_empty : Sound {} where
  fit := fun _ h => absurd h List.not_mem_nil
  known := fun _ => rfl
  counted := fun _ => rfl
  balanced := fun _ => rfl

/-! ### What is recorded -/

theorem effects_record_of_ne {path other : String} (h : other ≠ path)
    (effect? : Option CacheEffect) : (s.record path effect?).effects other = s.effects other := by
  cases effect? with
  | none => rfl
  | some effect =>
      have hskip : (path == other) = false := beq_false_of_ne (Ne.symm h)
      show ((((path, effect) :: s.history).filter (·.1 == other)).map (·.2)) = s.effects other
      rw [List.filter_cons_of_neg (by simp [hskip])]
      rfl

theorem effects_record (path : String) (effect : CacheEffect) :
    (s.record path (some effect)).effects path = effect :: s.effects path := by
  show ((((path, effect) :: s.history).filter (·.1 == path)).map (·.2)) = effect :: s.effects path
  rw [List.filter_cons_of_pos (by simp)]
  rfl

theorem entry?_record_of_ne {path other : String} (h : other ≠ path)
    (effect? : Option CacheEffect) :
    (s.record path effect?).cache.entry? other = s.cache.entry? other := by
  cases effect? with
  | none => rfl
  | some effect => exact Cache.entry?_after_of_ne s.cache h effect

theorem pendingOf_record_of_ne {path other : String} (h : other ≠ path)
    (effect? : Option CacheEffect) :
    (s.record path effect?).cache.pendingOf other = s.cache.pendingOf other := by
  cases effect? with
  | none => rfl
  | some effect => exact Cache.pendingOf_after_of_ne s.cache h effect

/-- A step shifts the pending fetches of its path as it shifts what its operation has open. -/
theorem pendingOf_record (path : String) (step : CacheStep) (now : Timestamp) (outcome : Outcome) :
    (s.record path (step.effect? now outcome)).cache.pendingOf path =
      step.shift (s.cache.pendingOf path) := by
  cases step with
  | ifIdle | ifStored | store | put => rfl
  | begin => exact Cache.pendingOf_begin s.cache path
  | conclude => exact Cache.pendingOf_conclude s.cache path

theorem known_record (h : ∀ path, s.cache.entry? path = CacheEffect.known? (s.effects path))
    (path : String) (effect? : Option CacheEffect) (other : String) :
    (s.record path effect?).cache.entry? other =
      CacheEffect.known? ((s.record path effect?).effects other) := by
  by_cases hpath : other = path
  · subst hpath
    cases effect? with
    | none => exact h other
    | some effect =>
        rw [effects_record]
        exact Cache.entry?_after (h other) effect
  · rw [entry?_record_of_ne hpath, effects_record_of_ne hpath]
    exact h other

/-- Recording a step keeps the balance of beginnings and conclusions, when something is pending
that a conclusion can end. -/
theorem balanced_record (path : String) (step : CacheStep) (now : Timestamp) (outcome : Outcome)
    (hopen : step = .conclude → 0 < s.cache.pendingOf path) (h : s.Balanced path) :
    (s.record path (step.effect? now outcome)).Balanced path := by
  unfold Balanced at h ⊢
  rw [pendingOf_record]
  cases step with
  | ifIdle | ifStored => exact h
  | begin | store | put =>
      simp only [CacheStep.effect?, effects_record, List.countP_cons, CacheEffect.isBegun,
        CacheEffect.isConcluded, CacheStep.shift, Bool.false_eq_true, if_true, if_false]
      omega
  | conclude =>
      have hpos := hopen rfl
      simp only [CacheStep.effect?, effects_record, List.countP_cons, CacheEffect.isBegun,
        CacheEffect.isConcluded, CacheStep.shift, Bool.false_eq_true, if_true, if_false]
      omega

end SharedCache

theorem fit_replace {t next : CacheTask} {before after : List CacheTask}
    (h : ∀ other ∈ before ++ t :: after, other.Fit) (hnext : next.Fit) :
    ∀ other ∈ before ++ next :: after, other.Fit := by
  intro other hother
  rcases List.mem_append.mp hother with hmem | hmem
  · exact h other (List.mem_append_left _ hmem)
  · rcases List.mem_cons.mp hmem with rfl | hmem
    · exact hnext
    · exact h other (List.mem_append_right _ (List.mem_cons_of_mem _ hmem))

/-- A step of one operation shifts what all of them have open on its path. -/
theorem openOn_advance {t : CacheTask} {step : CacheStep} {rest : List CacheStep} (h : t.Fit)
    (hrest : t.rest = step :: rest) (before after : List CacheTask) :
    openOn t.path (before ++ t.advance step rest :: after) =
      step.shift (openOn t.path (before ++ t :: after)) := by
  have hnested := h.nested
  rw [hrest] at hnested
  have hbefore : t.openOn t.path = t.depth := if_pos rfl
  have hafter : (t.advance step rest).openOn t.path = step.shift t.depth := by
    rw [← CacheTask.depth_advance h step rest]
    exact if_pos rfl
  rw [openOn_append_cons, openOn_append_cons, hbefore, hafter]
  cases step with
  | ifIdle | ifStored | store | put => rfl
  | begin =>
      show openOn t.path before + (t.depth + 1 + openOn t.path after) =
        openOn t.path before + (t.depth + openOn t.path after) + 1
      omega
  | conclude =>
      have hpos := hnested.pos_of_conclude
      show openOn t.path before + (t.depth - 1 + openOn t.path after) =
        openOn t.path before + (t.depth + openOn t.path after) - 1
      omega

theorem openOn_advance_of_ne {t : CacheTask} {path : String} (h : path ≠ t.path)
    (step : CacheStep) (rest : List CacheStep) (before after : List CacheTask) :
    openOn path (before ++ t.advance step rest :: after) = openOn path (before ++ t :: after) := by
  have hbefore : t.openOn path = 0 := if_neg (Ne.symm h)
  have hafter : (t.advance step rest).openOn path = 0 := if_neg (Ne.symm h)
  rw [openOn_append_cons, openOn_append_cons, hbefore, hafter]

namespace SharedCache

variable {s : SharedCache}

theorem Sound.step (h : s.Sound) (move : CacheMove) : (s.step move).Sound := by
  have hmoved := moved_step s move
  generalize s.path? move = path?, s.step move = s' at hmoved
  cases hmoved with
  | idle => exact h
  | started operation path =>
      constructor
      case fit =>
        intro t ht
        rcases List.mem_append.mp ht with ht | ht
        · exact h.fit t ht
        · rw [List.mem_singleton.mp ht]
          exact CacheTask.fit_of operation path
      case known => exact h.known
      case counted =>
        intro other
        have hnew : (CacheTask.of operation path).openOn other = 0 := by
          unfold CacheTask.openOn
          split <;> rfl
        show s.cache.pendingOf other = openOn other (s.tasks ++ CacheTask.of operation path :: [])
        rw [openOn_append_cons, hnew, h.counted other]
        rfl
      case balanced => exact h.balanced
  | gaveUp t before after look rest htasks hrest hlook =>
      have hall := h.fit
      rw [htasks] at hall
      have hfit : t.Fit := hall t (List.mem_append_right _ List.mem_cons_self)
      constructor
      case fit => exact fit_replace hall (hfit.giveUp hrest hlook)
      case known => exact h.known
      case counted =>
        intro path
        have hsame : t.giveUp.openOn path = t.openOn path := rfl
        show s.cache.pendingOf path = openOn path (before ++ t.giveUp :: after)
        rw [h.counted path, htasks, openOn_append_cons, openOn_append_cons, hsame]
      case balanced => exact h.balanced
  | advanced t before after step rest now outcome htasks hrest =>
      have hall := h.fit
      rw [htasks] at hall
      have hfit : t.Fit := hall t (List.mem_append_right _ List.mem_cons_self)
      have hcounted := h.counted
      rw [htasks] at hcounted
      constructor
      case fit => exact fit_replace hall (hfit.advance hrest)
      case known => exact known_record h.known t.path _
      case counted =>
        intro path
        show (s.record t.path (step.effect? now outcome)).cache.pendingOf path =
          openOn path (before ++ t.advance step rest :: after)
        by_cases hpath : path = t.path
        · rw [hpath, pendingOf_record, openOn_advance hfit hrest, hcounted]
        · rw [pendingOf_record_of_ne hpath, openOn_advance_of_ne hpath, hcounted]
      case balanced =>
        intro path
        by_cases hpath : path = t.path
        · subst hpath
          -- an operation that concludes finds its own beginning among those that are pending
          refine balanced_record t.path step now outcome (fun hstep => ?_) (h.balanced t.path)
          have hnested := hfit.nested
          rw [hrest, hstep] at hnested
          have hpos := hnested.pos_of_conclude
          have hopen : t.openOn t.path = t.depth := if_pos rfl
          rw [hcounted, openOn_append_cons, hopen]
          omega
        · show (s.record t.path (step.effect? now outcome)).Balanced path
          unfold Balanced
          rw [pendingOf_record_of_ne hpath, effects_record_of_ne hpath]
          exact h.balanced path

/-- From an empty cache on, the invariant holds after any moves. -/
theorem sound_run (h : s.Sound) (moves : List CacheMove) : (s.run moves).Sound := by
  induction moves generalizing s with
  | nil => exact h
  | cons move moves ih => exact ih (h.step move)

/-! ## What is shown -/

/-- What the cache shows of a path is what is known of it. -/
theorem cached_of_known {c : Cache} {path : String} {effects : List CacheEffect}
    (h : c.entry? path = CacheEffect.known? effects) :
    c.cached path = { data := (effects.findSome? CacheEffect.brought?).bind (·.2)
                      error := (effects.findSome? CacheEffect.outcome?).bind fun
                        | .ok _ => none
                        | .error cause => some cause
                      fetchedAt := (effects.findSome? CacheEffect.brought?).map (·.1) } := by
  unfold Cache.cached
  rw [h]
  unfold CacheEffect.known?
  cases hlast : effects.findSome? CacheEffect.outcome? with
  | some last => cases last <;> rfl
  | none =>
      rw [CacheEffect.brought?_eq_none hlast]
      rfl

/-- What a cache shows of a path, by what was done under that path. -/
structure Accounted (s : SharedCache) (path : String) : Prop where
  /-- Never more was concluded than was begun, and the rest is pending. -/
  pending : s.cache.pendingOf path + (s.effects path).countP CacheEffect.isConcluded =
    (s.effects path).countP CacheEffect.isBegun
  loading : (s.cache.peek path).loading = true ↔ ∃ t ∈ s.tasks, t.path = path ∧ t.UnderWay
  data : (s.cache.peek path).data = ((s.effects path).findSome? CacheEffect.brought?).bind (·.2)
  fetchedAt : (s.cache.peek path).fetchedAt =
    ((s.effects path).findSome? CacheEffect.brought?).map (·.1)
  error : (s.cache.peek path).error =
    ((s.effects path).findSome? CacheEffect.outcome?).bind fun
      | .ok _ => none
      | .error cause => some cause
  /-- A failure adds to what was done and leaves the data that is shown. -/
  kept : ∀ move now cause,
    (s.step move).effects path = .stored now (.error cause) :: s.effects path →
    ((s.step move).cache.peek path).data = (s.cache.peek path).data ∧
    ((s.step move).cache.peek path).fetchedAt = (s.cache.peek path).fetchedAt
  /-- A move of an operation on another path is not seen here. -/
  apart : ∀ move, s.path? move ≠ some path →
    (s.step move).effects path = s.effects path ∧
    (s.step move).tasks.filter (·.path = path) = s.tasks.filter (·.path = path) ∧
    (s.step move).cache.pendingOf path = s.cache.pendingOf path ∧
    (s.step move).cache.peek path = s.cache.peek path
  /-- A refresh that looks before anything was stored is over without having begun anything. -/
  unstored : ∀ number, s.tasks[number]? = some (.of .refresh path) →
    (s.effects path).findSome? CacheEffect.outcome? = none → ∀ now outcome later,
    (s.step (.go number now outcome)).cache = s.cache ∧
    (s.run (.go number now outcome :: later)).tasks[number]? = some { path, done := [], rest := [] }

/-- An operation on another path is none of this one. -/
theorem filter_path_of_ne {t : CacheTask} {path : String} (h : t.path ≠ path)
    (before after : List CacheTask) :
    (before ++ t :: after).filter (·.path = path) =
      before.filter (·.path = path) ++ after.filter (·.path = path) := by
  rw [List.filter_append, List.filter_cons_of_neg (by simpa using h)]

/-- A move of an operation on another path changes nothing under this one. -/
theorem step_apart (s : SharedCache) {path : String} {move : CacheMove}
    (h : s.path? move ≠ some path) :
    (s.step move).effects path = s.effects path ∧
    (s.step move).tasks.filter (·.path = path) = s.tasks.filter (·.path = path) ∧
    (s.step move).cache.pendingOf path = s.cache.pendingOf path ∧
    (s.step move).cache.entry? path = s.cache.entry? path := by
  have hmoved := moved_step s move
  generalize s.path? move = path?, s.step move = s' at h hmoved
  cases hmoved with
  | idle => exact ⟨rfl, rfl, rfl, rfl⟩
  | started operation other =>
      have hother : other ≠ path := fun heq => h (congrArg some heq)
      have hnew : (CacheTask.of operation other).path ≠ path := hother
      refine ⟨rfl, ?_, rfl, rfl⟩
      show (s.tasks ++ [CacheTask.of operation other]).filter (·.path = path) = _
      rw [filter_path_of_ne hnew]
      exact List.append_nil _
  | gaveUp t before after look rest htasks hrest hlook =>
      have hother : t.path ≠ path := fun heq => h (congrArg some heq)
      have hafter : t.giveUp.path ≠ path := hother
      refine ⟨rfl, ?_, rfl, rfl⟩
      show (before ++ t.giveUp :: after).filter (·.path = path) = _
      rw [htasks, filter_path_of_ne hother, filter_path_of_ne hafter]
  | advanced t before after step rest now outcome htasks hrest =>
      have hother : t.path ≠ path := fun heq => h (congrArg some heq)
      have hafter : (t.advance step rest).path ≠ path := hother
      refine ⟨effects_record_of_ne (Ne.symm hother) _, ?_,
        pendingOf_record_of_ne (Ne.symm hother) _, entry?_record_of_ne (Ne.symm hother) _⟩
      show (before ++ t.advance step rest :: after).filter (·.path = path) = _
      rw [htasks, filter_path_of_ne hother, filter_path_of_ne hafter]

/-- An operation that is over stays so. -/
theorem over_step {number : Nat} {t : CacheTask} (h : s.tasks[number]? = some t)
    (hover : t.rest = []) (move : CacheMove) : (s.step move).tasks[number]? = some t := by
  cases move with
  | start operation path =>
      show (s.tasks ++ [CacheTask.of operation path])[number]? = some t
      rw [List.getElem?_append_left (List.getElem?_eq_some_iff.mp h).1]
      exact h
  | go other now outcome =>
      cases htask : s.tasks[other]? with
      | none =>
          rw [step_go_of_none htask]
          exact h
      | some task =>
          rw [step_go htask]
          by_cases hsame : other = number
          · subst hsame
            have htask : task = t := Option.some.inj (htask.symm.trans h)
            unfold advance
            rw [htask, hover]
            exact h
          · unfold advance
            split
            case h_1 => exact h
            case h_2 =>
              split <;> exact (List.getElem?_set_ne hsame).trans h

theorem over_run {number : Nat} {t : CacheTask} (h : s.tasks[number]? = some t)
    (hover : t.rest = []) (moves : List CacheMove) : (s.run moves).tasks[number]? = some t := by
  induction moves generalizing s with
  | nil => exact h
  | cons move moves ih => exact ih (over_step h hover move)

/-- A refresh that looks where nothing was stored does not go on. -/
theorem step_unstored {number : Nat} {path : String}
    (htask : s.tasks[number]? = some (.of .refresh path)) (h : s.cache.entry? path = none)
    (now : Timestamp) (outcome : Outcome) :
    s.step (.go number now outcome) =
      { s with tasks := s.tasks.set number { path, done := [], rest := [] } } := by
  have hlook : CacheStep.passes s.cache path .ifStored = false := by
    show (s.cache.entry? path).isSome = false
    rw [h]
    rfl
  rw [step_go htask]
  show (if CacheStep.passes s.cache path .ifStored then _ else _) = _
  rw [hlook]
  rfl

/-- What a cache that many share shows of a path, at any time. -/
theorem accounted_run (moves : List CacheMove) (path : String) :
    (run {} moves).Accounted path := by
  have hsound : (run {} moves).Sound := sound_run sound_empty moves
  generalize run {} moves = s at hsound
  have hcached := cached_of_known (hsound.known path)
  constructor
  case pending => exact hsound.balanced path
  case loading =>
    show decide (0 < s.cache.pendingOf path) = true ↔ _
    rw [decide_eq_true_iff, hsound.counted path]
    exact openOn_pos_iff hsound.fit path
  case data => exact congrArg CacheView.data hcached
  case fetchedAt => exact congrArg CacheView.fetchedAt hcached
  case error => exact congrArg CacheView.error hcached
  case kept =>
    intro move now cause heffects
    have hnext := cached_of_known ((hsound.step move).known path)
    rw [heffects] at hnext
    constructor
    · show ((s.step move).cache.cached path).data = (s.cache.cached path).data
      rw [hnext, hcached]
      rfl
    · show ((s.step move).cache.cached path).fetchedAt = (s.cache.cached path).fetchedAt
      rw [hnext, hcached]
      rfl
  case apart =>
    intro move hmove
    obtain ⟨heffects, htasks, hpending, hentry⟩ := step_apart s hmove
    refine ⟨heffects, htasks, hpending, ?_⟩
    unfold Cache.peek Cache.cached
    rw [hpending, hentry]
  case unstored =>
    intro number htask hnothing now outcome later
    have hentry : s.cache.entry? path = none := by
      rw [hsound.known path, CacheEffect.known?, hnothing]
      rfl
    have hstep := step_unstored htask hentry now outcome
    have hset : (s.step (.go number now outcome)).tasks[number]? =
        some { path, done := [], rest := [] } := by
      rw [hstep]
      exact List.getElem?_set_self (List.getElem?_eq_some_iff.mp htask).1
    exact ⟨by rw [hstep], over_run hset rfl later⟩

end SharedCache
end ReviewQueue
