import ReviewQueue.Proofs.Review.Asked
import ReviewQueue.Proofs.Review.UpToDate

/-!
# How often a review fetches its list

A review fetches the list of its batch when it starts, and after every save, and at no other time,
whichever way it goes. Each session is located in the list that was fetched last.

* `Reviewer.leads_mount`, `Reviewer.leads_reviewOne`, `Reviewer.leads_walk` — the list stays up to
  date;
* `Reviewer.upToDate_of_run` — it is up to date at the end of a review;
* `list_fetched_once_and_per_save` — the whole review.
-/

namespace ReviewQueue

open RemoteCall

/-- A plan whose first requests can be made: the path of its list can be built, and so can those of
the submission to start at, if one is given. -/
structure ReviewPlan.Starts (plan : ReviewPlan) (list : String) : Prop where
  list : Endpoint.list plan.request.project plan.request.batch = .ok list
  submission : plan.request.id ≠ "" →
    ∃ paths, Session.Paths.of (Reviewer.params plan plan.request.id) = .ok paths

namespace Reviewer

variable [Remote ω] {plan : ReviewPlan} {list id : String} {s : Session}

/-! ## The list stays up to date -/

/-- A mount at which the list is in the cache, or is fetched for the first time. -/
theorem leads_mount_first {paths : Session.Paths}
    (hlist : Endpoint.list plan.request.project plan.request.batch = .ok list)
    (hpaths : Session.Paths.of (params plan id) = .ok paths) :
    Leads (fun (d : Desk (Recorded ω)) _ => d.UpToDate list ∨ d.Untouched list)
      (fun d _ => d.UpToDate list) (fun s => s.coordinator.listPath = list) (mount plan id) := by
  intro r hr
  have hsettle : r.desk.settle.UpToDate list ∨ r.desk.settle.Untouched list :=
    hr.imp Desk.UpToDate.settle Desk.Untouched.settle
  have hmount := Session.upToDate_of_mount hsettle (p := params plan id) hlist rfl hpaths
  rw [mount_run]
  refine ⟨hmount.1, fun s hs => ?_⟩
  cases hloaded : (Session.mount r.desk.settle (params plan id)).2 with
  | error e =>
      rw [hloaded] at hs
      cases hs
  | ok loaded =>
      rw [hloaded] at hs
      obtain rfl := Except.ok.inj hs
      have hfollows := Session.follows_of_mount (Prod.ext rfl hloaded)
      exact Except.ok.inj (hfollows.list.symm.trans hlist)

theorem leads_mount (hlist : Endpoint.list plan.request.project plan.request.batch = .ok list)
    (id : String) :
    Leads (fun (d : Desk (Recorded ω)) _ => d.UpToDate list) (fun d _ => d.UpToDate list)
      (fun s => s.coordinator.listPath = list) (mount plan id) := by
  intro r hr
  cases hpaths : Session.Paths.of (params plan id) with
  | ok paths => exact leads_mount_first hlist hpaths r (.inl hr)
  | error e =>
      rw [mount_run, Session.mount_of_unbuilt hpaths]
      exact ⟨hr.settle, fun _ heq => nomatch heq⟩

theorem leads_submit (hs : s.coordinator.listPath = list) :
    Leads (fun (d : Desk (Recorded ω)) _ => d.UpToDate list) (fun d _ => d.UpToDate list)
      (fun _ => True) (submit s) := fun r hr => by
  rw [submit_run]
  exact ⟨Session.upToDate_of_submit hr hs r.executor, fun _ _ => trivial⟩

theorem leads_converse (hne : Endpoint.statuses ≠ list) (fuel : Nat)
    (hs : s.coordinator.listPath = list) :
    Leads (fun (d : Desk (Recorded ω)) _ => d.UpToDate list) (fun d _ => d.UpToDate list)
      (fun _ => True) (converse plan fuel s) := by
  induction fuel generalizing s with
  | zero => exact .throw _
  | succ fuel ih =>
      have hchoose : Leads (fun (d : Desk (Recorded ω)) _ => d.UpToDate list)
          (fun d _ => d.UpToDate list) (fun _ => True) (chooseAction s) :=
        .bind (.ask _) fun _ _ => .pure trivial
      unfold converse
      refine .bind hchoose fun action _ => ?_
      split
      · exact .throw _
      · split
        · exact leads_followed _ _
        · exact .fail _
      · split
        · exact leads_followed _ _
        · exact .fail _
      · refine .bind (leads_promptVerdict (fun d _ hd => hd.get hne) plan.drafter s) ?_
        -- the prompts change nothing but the form
        rintro _ ⟨form, rfl⟩
        refine .bind (leads_submit hs) fun result _ => ?_
        split
        · exact leads_followed _ _
        · exact .bind (.tell _) fun _ _ => ih hs
        · split
          · exact ih hs
          · exact .fail _
        · exact .fail _

theorem leads_reviewGiven (hs : s.coordinator.listPath = list) :
    Leads (fun (d : Desk (Recorded ω)) _ => d.UpToDate list) (fun d _ => d.UpToDate list)
      (fun _ => True) (reviewGiven plan s) := by
  unfold reviewGiven
  split
  · exact .fail _
  · rename_i given hgiven
    obtain ⟨form, rfl⟩ := formOf_given hgiven
    refine .bind (leads_submit hs) fun result _ => ?_
    split
    · exact leads_followed _ _
    · exact .fail _

/-- A mount whose paths cannot be built returns nothing, and does nothing but run the background
fetches. -/
theorem leads_mount_unbuilt {P : Desk ω → Executor → Prop}
    (hsettle : ∀ d e, P d e → P d.settle e) {e : RouteError}
    (hpaths : Session.Paths.of (params plan id) = .error e) :
    Leads P P (fun _ => False) (mount plan id) := by
  intro r hr
  rw [mount_run, Session.mount_of_unbuilt hpaths]
  exact ⟨hsettle _ _ hr, fun _ heq => nomatch heq⟩

/-- What a review does with a submission when its mount keeps the list up to date. -/
theorem leads_reviewOne {P : Desk (Recorded ω) → Executor → Prop}
    (hlist : Endpoint.list plan.request.project plan.request.batch = .ok list)
    (hmount : Leads P (fun d _ => d.UpToDate list) (fun s => s.coordinator.listPath = list)
      (mount plan id)) :
    Leads P (fun d _ => d.UpToDate list) (fun _ => True) (reviewOne plan id) := by
  refine .bind hmount fun s hs => .bind (leads_present (fun d _ hd => hd.settle) s) fun _ _ => ?_
  split
  · exact leads_reviewGiven hs
  · refine .get fun r => ?_
    exact leads_converse (Endpoint.list_ne_statuses hlist) _ hs

/-- One round of the walk, and the ones behind it. -/
theorem leads_round {P : Desk (Recorded ω) → Executor → Prop} {fuel : Nat}
    (hlist : Endpoint.list plan.request.project plan.request.batch = .ok list)
    (hmount : Leads P (fun d _ => d.UpToDate list) (fun s => s.coordinator.listPath = list)
      (mount plan id))
    (hrest : ∀ next, Leads (fun (d : Desk (Recorded ω)) _ => d.UpToDate list)
      (fun d _ => d.UpToDate list) (fun _ => True) (walk plan fuel next)) :
    Leads P (fun d _ => d.UpToDate list) (fun _ => True) (walk plan (fuel + 1) id) := by
  refine .bind (leads_reviewOne hlist hmount) fun next _ => ?_
  split
  · exact .pure trivial
  · exact .bind (.tell _) fun _ _ => hrest next

theorem leads_walk (hlist : Endpoint.list plan.request.project plan.request.batch = .ok list)
    (fuel : Nat) (id : String) :
    Leads (fun (d : Desk (Recorded ω)) _ => d.UpToDate list) (fun d _ => d.UpToDate list)
      (fun _ => True) (walk plan fuel id) := by
  induction fuel generalizing id with
  | zero => exact .pure trivial
  | succ fuel ih => exact leads_round hlist (leads_mount hlist id) ih

/-! ## The whole review -/

/-- A search for the first submission that is left fetches the list for the first time. -/
theorem leads_firstPending
    (hlist : Endpoint.list plan.request.project plan.request.batch = .ok list) :
    Leads (fun (d : Desk (Recorded ω)) _ => d.Untouched list) (fun d _ => d.UpToDate list)
      (fun _ => True) (firstPending plan.request) := fun r hr => by
  rw [firstPending_eq hlist]
  exact ⟨hr.get, fun _ _ => trivial⟩

theorem start_of_given (h : plan.request.id ≠ "") :
    start (ω := ω) plan = Pure.pure plan.request.id := by
  unfold start
  rw [if_pos (by simpa using h)]

theorem leads_start (hlist : Endpoint.list plan.request.project plan.request.batch = .ok list)
    (hid : plan.request.id = "") :
    Leads (fun (d : Desk (Recorded ω)) _ => d.Untouched list) (fun d _ => d.UpToDate list)
      (fun _ => True) (start plan) := by
  unfold start
  rw [if_neg (by simp [hid])]
  refine .bind (leads_firstPending hlist) fun first _ => ?_
  split
  · exact .pure trivial
  · exact .bind (.tell _) fun _ _ => .throw _

theorem run_fst (plan : ReviewPlan) (r : Reviewer ω) :
    (Reviewer.run plan r).1 = ((start plan >>= fun id => get >>= fun r' =>
      walk plan (r'.terminal.input.length + 1) id).run.run r).2 := by
  simp only [Reviewer.run]
  split
  · rename_i heq
    exact (congrArg Prod.snd heq).symm
  · rename_i heq
    exact (congrArg Prod.snd heq).symm

/-- The submission to start at can be loaded, if one is given. -/
def StartLoads (plan : ReviewPlan) (r : Reviewer ω) : Prop :=
  plan.request.id ≠ "" → ((mount plan plan.request.id).run.run r).1.isOk

/-- The list is up to date at the end of a review. -/
theorem upToDate_of_run (hstarts : plan.Starts list) {r : Reviewer (Recorded ω)}
    (hr : r.desk.Untouched list) : (Reviewer.run plan r).1.desk.UpToDate list := by
  rw [run_fst]
  by_cases hid : plan.request.id = ""
  · exact (Leads.bind (leads_start hstarts.list hid)
      (fun id _ => .get fun r' => leads_walk hstarts.list _ id) r hr).1
  · -- the first mount is the one that fetches the list
    obtain ⟨paths, hpaths⟩ := hstarts.submission hid
    rw [start_of_given hid, pure_bind]
    exact (Leads.get (fun r' => leads_round hstarts.list (leads_mount_first hstarts.list hpaths)
      (leads_walk hstarts.list r'.terminal.input.length)) r (.inr hr)).1

/-- A review whose first requests cannot be made makes none. -/
theorem run_of_not_starts (h : ∀ list, ¬ plan.Starts list) {r : Reviewer ω}
    (hjobs : r.desk.jobs = []) : (Reviewer.run plan r).1.desk = r.desk := by
  have hsettle : r.desk.settle = r.desk := by
    obtain ⟨terminal, ⟨remote, cache, jobs⟩, executor⟩ := r
    obtain rfl : jobs = [] := hjobs
    rfl
  have hstays : Leads (fun (d : Desk ω) _ => d = r.desk) (fun d _ => d = r.desk) (fun _ => True)
      (start plan >>= fun id => get >>= fun r' =>
        walk plan (r'.terminal.input.length + 1) id) := by
    by_cases hid : plan.request.id = ""
    · cases hlist : Endpoint.list plan.request.project plan.request.batch with
      | ok list => exact absurd ⟨hlist, fun hne => absurd hid hne⟩ (h list)
      | error e =>
          have hfirst : Leads (fun (d : Desk ω) _ => d = r.desk) (fun d _ => d = r.desk)
              (fun _ => False) (firstPending plan.request) := by
            unfold firstPending
            rw [hlist]
            exact .fail _
          unfold start
          rw [if_neg (by simp [hid])]
          exact .bind (.bind hfirst fun _ => False.elim) fun _ => False.elim
    · cases hpaths : Session.Paths.of (params plan plan.request.id) with
      | ok paths =>
          obtain ⟨-, hlist, -⟩ := (Session.Paths.of_eq_ok_iff _ _).mp hpaths
          exact absurd ⟨hlist, fun _ => ⟨paths, hpaths⟩⟩ (h paths.list)
      | error e =>
          have hmount : Leads (fun (d : Desk ω) _ => d = r.desk) (fun d _ => d = r.desk)
              (fun _ => False) (mount plan plan.request.id) :=
            leads_mount_unbuilt (fun d _ hd => hd ▸ hsettle) hpaths
          rw [start_of_given hid, pure_bind]
          refine .get fun _ => ?_
          exact .bind (.bind hmount fun _ => False.elim) fun _ => False.elim
  rw [run_fst]
  exact (hstays r rfl).1

/-! ## The sessions of a review -/

/-- The submissions that a review comes to: the one that it starts at, and from each the one that
its session leads to. -/
inductive Visits (plan : ReviewPlan) (r : Reviewer ω) : String → Reviewer ω → Prop
  | start {id : String} {r' : Reviewer ω} :
      (start plan).run.run r = (.ok id, r') → Visits plan r id r'
  | next {id next : String} {r' r'' : Reviewer ω} : Visits plan r id r' →
      (reviewOne plan id).run.run r' = (.ok next, r'') →
      (plan.request.once || plan.request.verdictGiven) = false →
      Visits plan r next { r'' with terminal := r''.terminal.tell (·.line "") }

/-- Wherever a review comes, the list is up to date, if it was fetched yet. -/
theorem Visits.upToDate {r r' : Reviewer (Recorded ω)} (h : Visits plan r id r')
    (hlist : Endpoint.list plan.request.project plan.request.batch = .ok list)
    (hr : r.desk.Untouched list) : r'.desk.UpToDate list ∨ r'.desk.Untouched list := by
  induction h with
  | start hstart =>
      by_cases hid : plan.request.id = ""
      · have hleads := (leads_start hlist hid r hr).1
        rw [hstart] at hleads
        exact .inl hleads
      · rw [start_of_given hid] at hstart
        obtain ⟨-, rfl⟩ := Prod.mk.inj hstart
        exact .inr hr
  | @next id next r' r'' _ hone _ ih =>
      cases hpaths : Session.Paths.of (params plan id) with
      | ok paths =>
          have hleads := (leads_reviewOne hlist (leads_mount_first hlist hpaths) r' ih).1
          rw [hone] at hleads
          exact .inl hleads
      | error e =>
          -- nothing comes after a submission that was not loaded
          have hmount : Leads (fun (_ : Desk (Recorded ω)) _ => True) (fun _ _ => True)
              (fun _ => False) (mount plan id) :=
            leads_mount_unbuilt (fun _ _ _ => trivial) hpaths
          have hleads : Leads (fun (_ : Desk (Recorded ω)) _ => True) (fun _ _ => True)
              (fun _ => False) (reviewOne plan id) := .bind hmount fun _ => False.elim
          exact (hleads r' trivial).2 next (congrArg Prod.fst hone) |>.elim

/-- A session is located in the list that was fetched last. -/
theorem Visits.located {r before after : Reviewer (Recorded ω)} (h : Visits plan r id before)
    (hlist : Endpoint.list plan.request.project plan.request.batch = .ok list)
    (hr : r.desk.Untouched list) (hmount : (mount plan id).run.run before = (.ok s, after))
    (hlisted : Listed list after.desk.calls) :
    ∃ data, Latest list after.desk.calls data ∧ Siblings.ofData? data = some s.siblings ∧
      s.siblingsError = none ∧
      s.navigator = Navigator.locate s.siblings id
        (if plan.preferences.pathTemplate = "" then Route.defaultTemplate
          else plan.preferences.pathTemplate)
        [(Route.projectId, plan.request.project), (Route.batchId, plan.request.batch)] := by
  obtain ⟨hsession, -⟩ := mount_eq_ok hmount
  obtain ⟨paths, -, -, hpaths, -⟩ := Session.mount_eq_ok hsession
  have hsettle := (h.upToDate hlist hr).imp Desk.UpToDate.settle Desk.Untouched.settle
  obtain ⟨-, hlocated⟩ :=
    Session.upToDate_of_mount hsettle (p := params plan id) hlist rfl hpaths
  rw [hsession] at hlocated
  exact hlocated s rfl hlisted

end Reviewer

/-! ## The whole review -/

theorem Reviewer.untouched_fresh (terminal : Terminal) (service : ω) (list : String) :
    (Reviewer.fresh terminal service).desk.Untouched list := ⟨rfl, rfl, rfl, rfl⟩

open Reviewer

/-- **The list is fetched once per run and once per save.** Let a review be run whose first requests
can be made, and let every answer with its list have entries. When the submission to start at can be
loaded and all background fetches are over, the list was fetched once and once for every write that
succeeded. (A load that fails may keep the list from being asked for, so nothing is said of it.) A
review whose first requests cannot be made makes none. Every session of a review is located in the
list of the latest answer at that time. At any desk, a list that is cached with entries is taken
without a fetch; otherwise the list is fetched once, and a fetch that fails gives the empty list and
its error, unless there is no path to fetch it from. -/
theorem list_fetched_once_and_per_save [Remote ω] (plan : ReviewPlan) (terminal : Terminal)
    (service : ω) :
    let r := Reviewer.fresh terminal service
    let calls := (Reviewer.run plan r).1.desk.settle.calls
    (∀ list, plan.Starts list → StartLoads plan r → Listed list calls →
      (answers list calls).length = 1 + saves calls) ∧
    ((∀ list, ¬ plan.Starts list) → calls = []) ∧
    (∀ list id before s after,
      Endpoint.list plan.request.project plan.request.batch = .ok list →
      Visits plan r id before → (mount plan id).run.run before = (.ok s, after) →
      Listed list after.desk.calls →
      ∃ data, Latest list after.desk.calls data ∧ Siblings.ofData? data = some s.siblings ∧
        s.siblingsError = none ∧
        s.navigator = Navigator.locate s.siblings id
          (if plan.preferences.pathTemplate = "" then Route.defaultTemplate
            else plan.preferences.pathTemplate)
          [(Route.projectId, plan.request.project), (Route.batchId, plan.request.batch)]) ∧
    ∀ (d : Desk (Recorded ω)) key path,
      (∀ item items, key ≠ "" →
        Siblings.ofData? (d.cache.cached key).data = some (item :: items) →
          Siblings.resolve d key path = (d, item :: items, none)) ∧
      ((key = "" ∨ ∀ items, Siblings.ofData? (d.cache.cached key).data = some items →
          items = []) →
        (path = "" → Siblings.resolve d key path = (d, [], none)) ∧
        (path ≠ "" → ∃ outcome,
          (Siblings.resolve d key path).1.calls = .fetched path outcome :: d.calls ∧
          (∀ data, outcome = .ok data →
            (Siblings.resolve d key path).2 = ((Siblings.ofData? data).getD [], none)) ∧
          ∀ e, outcome = .error e → (Siblings.resolve d key path).2 =
            ([], some (.during "fetch sibling list" e)))) := by
  intro r calls
  refine ⟨fun list hstarts _ hlisted => ?_, fun hnone => ?_, ?_, fun d key path => ⟨?_, ?_⟩⟩
  · have hup := (upToDate_of_run hstarts (untouched_fresh terminal service list)).settle
    obtain ⟨hcount, -⟩ := hup hlisted
    rw [Desk.jobs_settle] at hcount
    exact hcount
  · have hdesk := run_of_not_starts hnone (r := r) rfl
    show (Reviewer.run plan r).1.desk.settle.calls = []
    rw [hdesk]
    rfl
  · intro list id before s after hlist hvisits hmount hlisted
    exact hvisits.located hlist (untouched_fresh terminal service list) hmount hlisted
  · intro item items hkey hdata
    exact Siblings.resolve_of_cached
      ((Siblings.cached?_eq_some_iff _ _ _).mpr ⟨hkey, List.cons_ne_nil _ _, hdata⟩)
  · intro hmissing
    have hnone := (Siblings.cached?_eq_none_iff d.cache key).mpr hmissing
    refine ⟨?_, fun hpath => ⟨(Remote.fetch d.remote path).2, ?_, ?_, ?_⟩⟩
    · rintro rfl
      exact Siblings.resolve_of_nowhere hnone
    · rw [Siblings.desk_resolve hnone hpath]
      rfl
    · intro data hfetch
      rw [Siblings.resolve_of_fetched hnone hpath hfetch]
    · intro e hfetch
      rw [Siblings.resolve_of_failed hnone hpath hfetch]

/-- A service with one submission. -/
def Pages.single : Pages where
  pages :=
    [("/api/v1/projects/p/batches/b/submissions", "\x7b\"results\":[\x7b\"id\":1\x7d]\x7d"),
     ("/api/v1/submissions/1", "\x7b\"id\":1\x7d"), ("/api/v1/submissions/1/attachments", "[]")]

/-- A review with a verdict on one submission. -/
def ReviewPlan.single (id : String) : ReviewPlan where
  request := { project := "p", batch := "b", id, status := "APPROVED", feedback := "ok" }
  preferences := .ofSettings "" "" [] []

theorem list_fetched_twice_for_one_save :
    let calls := (Reviewer.run (.single "1") (.fresh {} Pages.single)).1.desk.settle.calls
    let list := "/api/v1/projects/p/batches/b/submissions"
    (ReviewPlan.single "1").Starts list ∧
      StartLoads (.single "1") (Reviewer.fresh {} Pages.single) ∧
      Listed list calls ∧ saves calls = 1 ∧ (answers list calls).length = 2 := by
  intro calls list
  have hstarts : (ReviewPlan.single "1").Starts list :=
    ⟨by decide +kernel, fun _ => ⟨⟨"/api/v1/submissions/1", list,
      "/api/v1/submissions/1/attachments"⟩, by decide +kernel⟩⟩
  have hloads : StartLoads (.single "1") (Reviewer.fresh {} Pages.single) :=
    fun _ => by decide +kernel
  obtain ⟨hlisted, hsaves⟩ : Listed list calls ∧ saves calls = 1 := by decide +kernel
  obtain ⟨hcount, -⟩ := list_fetched_once_and_per_save (.single "1") {} Pages.single
  exact ⟨hstarts, hloads, hlisted, hsaves,
    (hcount list hstarts hloads hlisted).trans (congrArg (1 + ·) hsaves)⟩

/-- The paths of a submission whose id has a replacement character cannot be built, so that its
review ends before the list is fetched. Without a path to fetch it from, no list is fetched either.
-/
theorem list_not_fetched_without_paths :
    let calls := (Reviewer.run (.single "\uFFFD") (.fresh {} Pages.single)).1.desk.settle.calls
    let list := "/api/v1/projects/p/batches/b/submissions"
    Endpoint.list "p" "b" = .ok list ∧ Listed list calls ∧
      (answers list calls).length ≠ 1 + saves calls ∧
      ((Siblings.resolve (Reviewer.fresh {} Pages.single).desk "k" "").1.calls.length ≠ 1) := by
  decide +kernel

end ReviewQueue
