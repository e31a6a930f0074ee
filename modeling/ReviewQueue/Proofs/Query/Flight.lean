import ReviewQueue.Proofs.Query.Desk
import ReviewQueue.Query.Flight

/-!
# Fetches that are shared

However paths are held and let go between fetches, at most one fetch of a path is under way, and
every background fetch that was started waits to be run, waits for that one, or is over.

* `HeldDesk.settle_of_free` — where no path is held, all background fetches are run to their end;
* `HeldDesk.desk_board_of_flying` — who joins a fetch that is under way sends nothing;
* `HeldDesk.Sound`, `HeldDesk.sound_after`, `HeldDesk.sound_run` — the invariant;
* `HeldDesk.Sound.loading_iff` — what is shown as loading;
* `HeldDesk.not_flying_release` — nobody waits for a path any more that was let go.
-/

namespace ReviewQueue

/-! ## Pending fetches -/

namespace Desk

variable (d : Desk ω) (path : String)

theorem pendingOf_launch (other : String) :
    (d.launch path).cache.pendingOf other =
      d.cache.pendingOf other + [path].count other := by
  by_cases h : other = path
  · subst h
    rw [List.count_singleton_self]
    exact Cache.pendingOf_begin d.cache other
  · rw [List.count_singleton, beq_false_of_ne (Ne.symm h)]
    exact Cache.pendingOf_begin_of_ne d.cache h

variable [Remote ω]

/-- A fetch that was made at once leaves nothing pending. -/
theorem pendingOf_get (other : String) :
    (d.get path).1.cache.pendingOf other = d.cache.pendingOf other := by
  unfold get
  by_cases h : other = path
  · subst h
    simp only [Cache.pendingOf_conclude, Cache.pendingOf_store, Cache.pendingOf_begin,
      Nat.add_sub_cancel]
  · simp only [Cache.pendingOf_conclude_of_ne _ h, Cache.pendingOf_store,
      Cache.pendingOf_begin_of_ne _ h]

/-- A background fetch that is over is one less that is pending. -/
theorem pendingOf_land (outcome : Outcome) (other : String) :
    (d.land path outcome).cache.pendingOf other =
      d.cache.pendingOf other - [path].count other := by
  unfold land
  by_cases h : other = path
  · subst h
    simp only [Cache.pendingOf_conclude, Cache.pendingOf_store, Cache.pendingOf_begin,
      List.count_singleton_self, Nat.add_sub_cancel]
  · rw [List.count_singleton, beq_false_of_ne (Ne.symm h)]
    simp only [Cache.pendingOf_conclude_of_ne _ h, Cache.pendingOf_store,
      Cache.pendingOf_begin_of_ne _ h]
    rfl

end Desk

namespace HeldDesk

/-- How many background fetches wait for the fetches of a path that are under way. -/
def waitingOn (path : String) : List (Flight α) → Nat
  | [] => 0
  | f :: flights => (if f.path = path then f.waiting else 0) + waitingOn path flights

theorem waitingOn_append (path : String) (flights more : List (Flight α)) :
    waitingOn path (flights ++ more) = waitingOn path flights + waitingOn path more := by
  induction flights with
  | nil => exact (Nat.zero_add _).symm
  | cons f flights ih =>
      rw [List.cons_append, waitingOn, waitingOn, ih, Nat.add_assoc]

theorem waitingOn_pos_iff {path : String} {flights : List (Flight α)}
    (h : ∀ f ∈ flights, 0 < f.waiting) :
    0 < waitingOn path flights ↔ ∃ f ∈ flights, f.path = path := by
  induction flights with
  | nil => simp [waitingOn]
  | cons f flights ih =>
      have hfirst : 0 < (if f.path = path then f.waiting else 0) ↔ f.path = path := by
        have hpos := h f List.mem_cons_self
        split <;> simp_all
      have hrest := ih fun g hg => h g (List.mem_cons_of_mem f hg)
      rw [waitingOn, Nat.add_pos_iff_pos_or_pos, hfirst, hrest]
      simp only [List.mem_cons, exists_eq_or_imp]

/-- Letting a path go splits what is waited for. -/
theorem waitingOn_filter (path other : String) (flights : List (Flight α)) :
    waitingOn other (flights.filter (·.path = path)) +
      waitingOn other (flights.filter (·.path ≠ path)) = waitingOn other flights := by
  induction flights with
  | nil => rfl
  | cons f flights ih =>
      by_cases hpath : f.path = path
      · rw [List.filter_cons_of_pos (by simpa using hpath),
          List.filter_cons_of_neg (by simpa using hpath), waitingOn, waitingOn, ← ih]
        omega
      · rw [List.filter_cons_of_neg (by simpa using hpath),
          List.filter_cons_of_pos (by simpa using hpath), waitingOn, waitingOn, ← ih]
        omega

/-- Joining a fetch changes no path. -/
theorem paths_join (path : String) (flights : List (Flight α)) :
    (join path flights).map (·.path) = flights.map (·.path) := by
  unfold join
  rw [List.map_map]
  refine List.map_congr_left fun f _ => ?_
  show (if f.path = path then { f with waiting := f.waiting + 1 } else f).path = f.path
  split <;> rfl

theorem join_of_not_flying {path : String} {flights : List (Flight α)}
    (h : path ∉ flights.map (·.path)) : join path flights = flights := by
  refine (List.map_congr_left fun f hf => ?_).trans (List.map_id flights)
  have hne : f.path ≠ path := fun heq => h (heq ▸ List.mem_map_of_mem hf)
  exact if_neg hne

/-- Who joins the only fetch of a path is one more that waits for it. -/
theorem waitingOn_join {path : String} {flights : List (Flight α)}
    (halone : (flights.map (·.path)).Nodup) (hflying : path ∈ flights.map (·.path))
    (other : String) :
    waitingOn other (join path flights) = waitingOn other flights + [path].count other := by
  induction flights with
  | nil => cases hflying
  | cons f flights ih =>
      obtain ⟨hfirst, hrest⟩ := List.nodup_cons.mp halone
      have hjoin : join path (f :: flights) =
          (if f.path = path then { f with waiting := f.waiting + 1 } else f) :: join path flights :=
        rfl
      rw [hjoin]
      by_cases hpath : f.path = path
      · -- the rest are fetches of other paths
        rw [if_pos hpath, join_of_not_flying (hpath ▸ hfirst), waitingOn, waitingOn,
          List.count_singleton, hpath]
        by_cases hother : path = other
        · rw [if_pos hother, if_pos hother, if_pos (beq_iff_eq.mpr hother)]
          exact Nat.add_right_comm f.waiting 1 _
        · rw [if_neg hother, if_neg hother, if_neg (by simpa using hother)]
          omega
      · have hflying : path ∈ flights.map (·.path) :=
          (List.mem_cons.mp hflying).resolve_left (Ne.symm hpath)
        rw [if_neg hpath, waitingOn, waitingOn, ih hrest hflying, Nat.add_assoc]

/-! ## The invariant -/

/-- What holds of a desk that has yet to run these background fetches. -/
structure Carries (h : HeldDesk ω α) (jobs : List String) : Prop where
  /-- At most one fetch of a path is under way. -/
  alone : (h.flights.map (·.path)).Nodup
  /-- Only fetches of paths that are held are under way. -/
  held : ∀ f ∈ h.flights, f.path ∈ h.held
  /-- Somebody waits for each of them. -/
  awaited : ∀ f ∈ h.flights, 0 < f.waiting
  /-- The background fetches that are pending wait to be run or for a fetch that is under way. -/
  pending : ∀ path, h.desk.cache.pendingOf path = jobs.count path + waitingOn path h.flights

/-- What holds of a desk between the moves of those who use it. -/
def Sound (h : HeldDesk ω α) : Prop := h.Carries h.desk.jobs

/-- Before anything was fetched, nothing is under way. -/
theorem sound_of_idle {d : Desk ω} (hpending : d.cache.pending = []) (hjobs : d.jobs = [])
    (held : List String) : Sound ({ desk := d, held } : HeldDesk ω α) where
  alone := List.nodup_nil
  held := fun _ hf => absurd hf List.not_mem_nil
  awaited := fun _ hf => absurd hf List.not_mem_nil
  pending := fun path => by
    show d.cache.pendingOf path = d.jobs.count path + 0
    unfold Cache.pendingOf
    rw [hpending, hjobs]
    rfl

variable {h : HeldDesk ω α}

/-- A path is shown as loading as long as a background fetch of it waits to be run or waits for a
fetch that is under way. -/
theorem Sound.loading_iff (hsound : h.Sound) (path : String) :
    (h.desk.cache.peek path).loading = true ↔
      path ∈ h.desk.jobs ∨ ∃ f ∈ h.flights, f.path = path := by
  show decide (0 < h.desk.cache.pendingOf path) = true ↔ _
  rw [decide_eq_true_iff, hsound.pending path, Nat.add_pos_iff_pos_or_pos, List.count_pos_iff,
    waitingOn_pos_iff hsound.awaited]

theorem Sound.launch (hsound : h.Sound) (path : String) :
    Sound { h with desk := h.desk.launch path } := by
  refine ⟨hsound.alone, hsound.held, hsound.awaited, fun other => ?_⟩
  show (h.desk.launch path).cache.pendingOf other =
    (h.desk.jobs ++ [path]).count other + waitingOn other h.flights
  rw [Desk.pendingOf_launch, hsound.pending other, List.count_append]
  omega

theorem Sound.refresh (hsound : h.Sound) (paths : List String) :
    Sound { h with desk := h.desk.refresh paths } := by
  unfold Desk.refresh
  induction paths generalizing h with
  | nil => exact hsound
  | cons path paths ih =>
      rw [List.foldl_cons]
      split
      · exact ih (hsound.launch path)
      · exact ih hsound

/-- A background fetch that is run is one less that waits to be run. -/
theorem Carries.pending_cons {path : String} {jobs : List String}
    (hcarries : h.Carries (path :: jobs)) (other : String) :
    h.desk.cache.pendingOf other =
      jobs.count other + (waitingOn other h.flights + [path].count other) := by
  rw [hcarries.pending, ← List.singleton_append, List.count_append]
  omega

theorem Carries.join {path : String} {jobs : List String} (hcarries : h.Carries (path :: jobs))
    (hflying : path ∈ h.flights.map (·.path)) :
    Carries { h with flights := HeldDesk.join path h.flights } jobs where
  alone := by
    rw [paths_join]
    exact hcarries.alone
  held f hf := by
    obtain ⟨g, hg, hpath⟩ := List.mem_map.mp (paths_join path h.flights ▸ List.mem_map_of_mem hf)
    exact hpath ▸ hcarries.held g hg
  awaited f hf := by
    obtain ⟨g, hg, rfl⟩ := List.mem_map.mp hf
    have hpos := hcarries.awaited g hg
    split
    · exact Nat.succ_pos _
    · exact hpos
  pending other := by
    rw [waitingOn_join hcarries.alone hflying]
    exact hcarries.pending_cons other

/-! ### Running a background fetch -/

variable [Staged ω α]

/-- Who joins a fetch that is under way sends nothing. -/
theorem desk_board_of_flying {path : String} (hflying : path ∈ h.flights.map (·.path)) :
    (h.board path).desk = h.desk := by
  unfold board
  rw [if_pos hflying]

theorem Carries.board {path : String} {jobs : List String} (hcarries : h.Carries (path :: jobs))
    (hheld : path ∈ h.held) : (h.board path).Carries jobs := by
  unfold HeldDesk.board
  split
  case isTrue hflying => exact hcarries.join hflying
  case isFalse hnew =>
    constructor
    case alone =>
      rw [List.map_append, List.nodup_append]
      refine ⟨hcarries.alone, List.nodup_cons.mpr ⟨List.not_mem_nil, List.nodup_nil⟩, ?_⟩
      intro a ha b hb heq
      have hpath : b = path := List.mem_singleton.mp hb
      exact hnew (hpath ▸ heq ▸ ha)
    case held =>
      intro f hf
      rcases List.mem_append.mp hf with hf | hf
      · exact hcarries.held f hf
      · rw [List.mem_singleton.mp hf]
        exact hheld
    case awaited =>
      intro f hf
      rcases List.mem_append.mp hf with hf | hf
      · exact hcarries.awaited f hf
      · rw [List.mem_singleton.mp hf]
        exact Nat.one_pos
    case pending =>
      intro other
      have hcount : waitingOn other [({ path, state := (Staged.start h.desk.remote path).2 } :
          Flight α)] = [path].count other := by
        rw [waitingOn, waitingOn, List.count_singleton]
        simp only [beq_iff_eq, Nat.add_zero]
      show h.desk.cache.pendingOf other = jobs.count other + waitingOn other (h.flights ++ _)
      rw [waitingOn_append, hcount]
      exact hcarries.pending_cons other

theorem Carries.run {path : String} {jobs : List String} (hcarries : h.Carries (path :: jobs)) :
    (h.run path).Carries jobs := by
  unfold HeldDesk.run
  split
  case isTrue hheld => exact hcarries.board hheld
  case isFalse hfree =>
    refine ⟨hcarries.alone, hcarries.held, hcarries.awaited, fun other => ?_⟩
    have hpending := hcarries.pending_cons other
    show (Desk.land _ path _).cache.pendingOf other = jobs.count other + waitingOn other h.flights
    rw [Desk.pendingOf_land]
    show h.desk.cache.pendingOf other - _ = _
    omega

theorem Carries.foldl_run {jobs : List String} (hcarries : h.Carries jobs) :
    (jobs.foldl HeldDesk.run h).Carries [] := by
  induction jobs generalizing h with
  | nil => exact hcarries
  | cons path jobs ih => exact ih hcarries.run

@[simp] theorem jobs_run (h : HeldDesk ω α) (path : String) :
    (h.run path).desk.jobs = h.desk.jobs := by
  unfold HeldDesk.run HeldDesk.board
  split
  · split <;> rfl
  · rfl

theorem jobs_foldl_run (h : HeldDesk ω α) (jobs : List String) :
    (jobs.foldl HeldDesk.run h).desk.jobs = h.desk.jobs := by
  induction jobs generalizing h with
  | nil => rfl
  | cons path jobs ih => rw [List.foldl_cons, ih, jobs_run]

theorem Sound.settle (hsound : h.Sound) : h.settle.Sound := by
  have hcarries : ({ h with desk := { h.desk with jobs := [] } } : HeldDesk ω α).Carries
      h.desk.jobs := ⟨hsound.alone, hsound.held, hsound.awaited, hsound.pending⟩
  unfold Sound HeldDesk.settle
  rw [jobs_foldl_run]
  exact hcarries.foldl_run

/-! ### The end of a fetch -/

/-- Everyone who waits for a fetch gets its outcome. -/
theorem repeat_land (d : Desk ω) (path : String) (outcome : Outcome) (waiting : Nat) :
    (Nat.repeat (·.land path outcome) waiting d).jobs = d.jobs ∧
      ∀ other, (Nat.repeat (·.land path outcome) waiting d).cache.pendingOf other =
        d.cache.pendingOf other - (if path = other then waiting else 0) := by
  induction waiting with
  | zero => exact ⟨rfl, fun other => by rw [ite_self]; rfl⟩
  | succ n ih =>
      refine ⟨ih.1, fun other => (Desk.pendingOf_land _ path outcome other).trans ?_⟩
      rw [ih.2, List.count_singleton]
      simp only [beq_iff_eq]
      split <;> omega

theorem foldl_arrive (d : Desk ω) (flights : List (Flight α)) :
    (flights.foldl arrive d).jobs = d.jobs ∧
      ∀ path, (flights.foldl arrive d).cache.pendingOf path =
        d.cache.pendingOf path - waitingOn path flights := by
  induction flights generalizing d with
  | nil => exact ⟨rfl, fun path => rfl⟩
  | cons f flights ih =>
      obtain ⟨hjobs, hpending⟩ := ih (arrive d f)
      obtain ⟨hjobsFirst, hpendingFirst⟩ :=
        repeat_land { d with remote := (Staged.finish d.remote f.path f.state).1 } f.path
          (Staged.finish d.remote f.path f.state).2 f.waiting
      refine ⟨hjobs.trans hjobsFirst, fun path => ?_⟩
      rw [List.foldl_cons, hpending, waitingOn, ← Nat.sub_sub]
      exact congrArg (· - waitingOn path flights) (hpendingFirst path)

theorem Sound.release (hsound : h.Sound) (path : String) : (h.release path).Sound := by
  obtain ⟨hjobs, hpending⟩ := foldl_arrive h.desk (h.flights.filter (·.path = path))
  constructor
  case alone => exact hsound.alone.sublist (List.filter_sublist.map _)
  case held =>
    intro f hf
    obtain ⟨hmem, hne⟩ := List.mem_filter.mp hf
    exact List.mem_filter.mpr ⟨hsound.held f hmem, hne⟩
  case awaited => exact fun f hf => hsound.awaited f (List.mem_filter.mp hf).1
  case pending =>
    intro other
    have hsplit := waitingOn_filter path other h.flights
    have hbefore := hsound.pending other
    show (List.foldl arrive h.desk _).cache.pendingOf other =
      (List.foldl arrive h.desk _).jobs.count other + waitingOn other (h.flights.filter _)
    rw [hjobs, hpending]
    omega

/-- Nobody waits for a path any more that was let go. -/
theorem not_flying_release (h : HeldDesk ω α) (path : String) :
    path ∉ (h.release path).held ∧ ∀ f ∈ (h.release path).flights, f.path ≠ path := by
  constructor
  · intro hheld
    simpa using (List.mem_filter.mp hheld).2
  · intro f hf
    simpa using (List.mem_filter.mp hf).2

/-- Where no path is held, all background fetches are run to their end. -/
theorem settle_of_free (hfree : h.held = []) : h.settle = { h with desk := h.desk.settle } := by
  have hfold (d : Desk ω) (jobs : List String) :
      jobs.foldl HeldDesk.run { h with desk := d } = { h with desk := jobs.foldl Desk.run d } := by
    induction jobs generalizing d with
    | nil => rfl
    | cons path jobs ih =>
        have hrun : HeldDesk.run { h with desk := d } path = { h with desk := d.run path } := by
          unfold HeldDesk.run
          rw [hfree]
          exact if_neg List.not_mem_nil
        rw [List.foldl_cons, hrun, ih, List.foldl_cons]
  exact hfold _ h.desk.jobs

/-! ## A run -/

/-- A move of those who use a desk. -/
inductive Move where
  | get (path : String)
  | prefetch (path : String)
  | refresh (paths : List String)
  | hold (path : String)
  | settle
  | release (path : String)
  deriving DecidableEq, Repr

/-- The desk after a move. -/
def after (h : HeldDesk ω α) : Move → HeldDesk ω α
  | .get path => { h with desk := (h.desk.get path).1 }
  | .prefetch path => { h with desk := h.desk.prefetch path }
  | .refresh paths => { h with desk := h.desk.refresh paths }
  | .hold path => h.hold path
  | .settle => h.settle
  | .release path => h.release path

/-- Every move keeps the invariant. -/
theorem sound_after (hsound : h.Sound) (move : Move) : (h.after move).Sound := by
  cases move with
  | get path =>
      refine ⟨hsound.alone, hsound.held, hsound.awaited, fun other => ?_⟩
      exact (Desk.pendingOf_get h.desk path other).trans (hsound.pending other)
  | prefetch path =>
      show Sound { h with desk := h.desk.prefetch path }
      unfold Desk.prefetch
      split
      · exact hsound.launch path
      · exact hsound
  | refresh paths => exact hsound.refresh paths
  | hold path =>
      exact ⟨hsound.alone, fun f hf => List.mem_cons_of_mem path (hsound.held f hf),
        hsound.awaited, hsound.pending⟩
  | settle => exact hsound.settle
  | release path => exact hsound.release path

/-- The invariant holds after any moves. -/
theorem sound_run (hsound : h.Sound) (moves : List Move) : (moves.foldl after h).Sound := by
  induction moves generalizing h with
  | nil => exact hsound
  | cons move moves ih => exact ih (sound_after hsound move)

end HeldDesk
end ReviewQueue
