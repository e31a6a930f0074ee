import ReviewQueue.Proofs.Review.Answered
import ReviewQueue.Proofs.Review.Fetched
import ReviewQueue.Proofs.Review.Round
import ReviewQueue.Proofs.Review.Shown

/-!
# How a review opens

To open a review, its list is loaded if no submission is asked for, then a submission with its
siblings and its attachments, and last the verdicts that are offered. The answers are texts of any
kind. Some of the steps step over an item that is missing in an answer, and some do not.
`ReviewPlan.Gap` says of the answers that they have such a gap in the way of the latter.

* `Reviewer.firstOpen?_eq_error_iff` — what is in the way of the first open submission;
* `Reviewer.CrashesAt` — an opening that crashes exactly at a gap;
* `Reviewer.crashesAt_openAt`, `Reviewer.crashesAt_unasked` — the opening of a submission, and the
  search for one;
* `opening_crashes_at_gaps` — the gaps are all that stops the opening of a review.
-/

namespace ReviewQueue

open RemoteCall

/-! ## Lists with a gap -/

/-- A list in which an item is missing before the first one that is looked for. -/
def GapBefore {α : Type} (found : α → Prop) (items : List (Option α)) : Prop :=
  ∃ before after, items = before ++ none :: after ∧ ∀ a, some a ∈ before → ¬ found a

theorem gapBefore_cons_none {α : Type} (found : α → Prop) (items : List (Option α)) :
    GapBefore found (none :: items) := ⟨[], items, rfl, fun _ hmem => nomatch hmem⟩

theorem gapBefore_cons_some {α : Type} {found : α → Prop} {a : α} {items : List (Option α)} :
    GapBefore found (some a :: items) ↔ ¬ found a ∧ GapBefore found items := by
  constructor
  · rintro ⟨_ | ⟨entry, before⟩, after, hsplit, hfirst⟩
    · cases hsplit
    · obtain ⟨rfl, rfl⟩ := List.cons.inj hsplit
      exact ⟨hfirst a List.mem_cons_self, before, after, rfl,
        fun b hmem => hfirst b (List.mem_cons_of_mem _ hmem)⟩
  · rintro ⟨ha, before, after, rfl, hfirst⟩
    refine ⟨some a :: before, after, rfl, fun b hmem => ?_⟩
    rcases List.mem_cons.mp hmem with heq | hmem
    · obtain rfl := Option.some.inj heq
      exact ha
    · exact hfirst b hmem

namespace Reviewer

theorem firstOpen?_eq_error_iff (items : List (Option Summary)) :
    (∃ e, firstOpen? items = .error e) ↔ GapBefore (fun s => s.status.isOpen = true) items := by
  induction items with
  | nil =>
      constructor
      · rintro ⟨e, h⟩
        cases h
      · rintro ⟨before, after, h, -⟩
        cases before <;> cases h
  | cons entry rest ih =>
      cases entry with
      | none => exact ⟨fun _ => gapBefore_cons_none _ rest, fun _ => ⟨{}, rfl⟩⟩
      | some s =>
          rw [gapBefore_cons_some, ← ih, firstOpen?]
          by_cases hopen : s.status.isOpen = true <;> simp [hopen]

/-- A gap before the place of a submission, as its session has it. -/
theorem position?_gap_iff (id : Int) (siblings : List (Option Summary)) :
    (∃ e, position? id 1 siblings = .error e) ↔ GapBefore (fun s => s.id = id) siblings := by
  rw [position?_eq_error_iff]
  refine exists_congr fun before => exists_congr fun after => and_congr_right fun _ => ?_
  constructor
  · exact fun h s hmem heq => h (some s) hmem (congrArg some heq)
  · rintro h (_ | s) hmem heq
    · cases heq
    · exact h s hmem (Option.some.inj heq)

end Reviewer

/-! ## Gaps in the answers -/

/-- The service has answered the request for the list of a plan with these entries. -/
def ReviewPlan.Entries (plan : ReviewPlan) (calls : List RemoteCall)
    (items : List (Option Summary)) : Prop :=
  ∃ path data, Endpoint.list plan.request.project plan.request.batch = .ok path ∧
    .ok data ∈ answers path calls ∧ Siblings.ofData? data = some items

/-- The submission that is opened, by the answers: the one that is asked for, or else the first open
one of the list. -/
inductive ReviewPlan.Opens (plan : ReviewPlan) (calls : List RemoteCall) : String → Prop
  | given (asked : plan.request.id ≠ "") : Opens plan calls plan.request.id
  | listed {items : List (Option Summary)} {id : Int} (unasked : plan.request.id = "")
      (entries : plan.Entries calls items) (first : Reviewer.firstOpen? items = .ok (some id)) :
      Opens plan calls (Text.ofInt id)

/-- A gap in the answers for a submission: among its attachments, or in the list before its entry.
-/
inductive ReviewPlan.GapAt (plan : ReviewPlan) (id : String) (calls : List RemoteCall) : Prop
  | attachment {paths : Session.Paths} {text : String} {items : List (Option Attachment)}
      (built : Session.Paths.of (Reviewer.params plan id) = .ok paths)
      (answered : .ok (some text) ∈ answers paths.attachments calls)
      (read : Json.decode? none Attachment.fillAll text.toList = some (some items))
      (missing : none ∈ items)
  | sibling {paths : Session.Paths} {outcome : Outcome} {s : Submission}
      {items : List (Option Summary)}
      (built : Session.Paths.of (Reviewer.params plan id) = .ok paths)
      (answered : outcome ∈ answers paths.detail calls) (loaded : loadedFrom? outcome = some s)
      (entries : plan.Entries calls items) (gap : GapBefore (fun x => x.id = s.id) items)

/-- A gap in the answers by which a review is opened: in the list before its first open entry, when
it is searched for one, or in the answers for the submission that is opened. -/
inductive ReviewPlan.Gap (plan : ReviewPlan) (calls : List RemoteCall) : Prop
  | entry {items : List (Option Summary)} (unasked : plan.request.id = "")
      (entries : plan.Entries calls items)
      (gap : GapBefore (fun s => s.status.isOpen = true) items)
  | submission {id : String} (opens : plan.Opens calls id) (gap : plan.GapAt id calls)

namespace ReviewPlan

variable {plan : ReviewPlan} {calls : List RemoteCall} {path : String}

/-- The entries of the list are those of its one answer. -/
theorem entries_iff (hpath : Endpoint.list plan.request.project plan.request.batch = .ok path)
    {list : Outcome} (hlist : answers path calls = [list]) (items : List (Option Summary)) :
    plan.Entries calls items ↔ ∃ data, list = .ok data ∧ Siblings.ofData? data = some items := by
  constructor
  · rintro ⟨other, data, hother, hanswered, hitems⟩
    obtain rfl := Except.ok.inj (hpath.symm.trans hother)
    rw [hlist] at hanswered
    exact ⟨data, (List.mem_singleton.mp hanswered).symm, hitems⟩
  · rintro ⟨data, rfl, hitems⟩
    exact ⟨path, data, hpath, hlist ▸ List.mem_singleton_self _, hitems⟩

theorem not_entries (h : ∀ path, Endpoint.list plan.request.project plan.request.batch = .ok path →
    answers path calls = []) (items : List (Option Summary)) : ¬ plan.Entries calls items := by
  rintro ⟨path, data, hpath, hanswered, -⟩
  rw [h path hpath] at hanswered
  cases hanswered

theorem opens_given (hid : plan.request.id ≠ "") (id : String) :
    plan.Opens calls id ↔ id = plan.request.id := by
  constructor
  · rintro (_ | ⟨hempty, -, -⟩)
    · rfl
    · exact absurd hempty hid
  · rintro rfl
    exact .given hid

end ReviewPlan

namespace Reviewer

/-! ## The opening -/

/-- Fetches the verdicts that are offered. -/
def offer [Remote ω] (s : Session) : ReviewStep ω (List StatusOption) := do
  let r ← get
  let (desk, options) := s.statusOptions r.desk
  set { r with desk }
  match options with
  | .ok options => return options
  | .error e => fail (.load e)

/-- Opens the review of a submission: loads it, shows it, and fetches the verdicts. -/
def openAt [Remote ω] (plan : ReviewPlan) (id : String) : ReviewStep ω (List StatusOption) := do
  let s ← mount plan id
  present s
  offer s

/-- Opens a review, up to its first question. -/
def opening [Remote ω] (plan : ReviewPlan) : ReviewStep ω (List StatusOption) := do
  let id ← start plan
  openAt plan id

/-- The ends of an opening that are in order: the verdicts that are offered, the end of the queue,
and an error of what was to be loaded. -/
inductive InOrder {α : Type} : Except ReviewStop α → Prop
  | value (a : α) : InOrder (.ok a)
  | finished : InOrder (.error .finished)
  | unloaded (cause : LoadError) : InOrder (.error (.failed (.load cause)))

variable [Remote ω] {plan : ReviewPlan} {id : String} {r : Reviewer (Recorded ω)}

theorem offer_run (s : Session) (r : Reviewer ω) :
    (offer s).run.run r =
      ((s.statusOptions r.desk).2.mapError fun e => .failed (.load e),
        { r with desk := (r.desk.get Endpoint.statuses).1 }) := by
  rw [← desk_statusOptions s r.desk]
  unfold offer
  simp only [run_bind, run_get, run_set]
  cases (s.statusOptions r.desk).2 <;> rfl

theorem inOrder_offer (s : Session) (r : Reviewer ω) : InOrder ((offer s).run.run r).1 := by
  rw [offer_run]
  cases (s.statusOptions r.desk).2 with
  | ok options => exact .value options
  | error e => exact .unloaded e

/-- Whether a session can be shown or not, its background fetches are run. -/
theorem desk_present (s : Session) (r : Reviewer ω) :
    ((present s).run.run r).2.desk = r.desk.settle := by
  have hrest : Leads (ω := ω) (fun d _ => d = r.desk.settle) (fun d _ => d = r.desk.settle)
      (fun _ => True) (showAttachments s >>= fun _ => showPosition s >>= fun _ =>
        if s.readOnly then
          tell fun c => c.info ("Already " ++ c.status s.submission.status.label ++
            "; opened read-only.") else Pure.pure ()) := by
    refine .bind (leads_showAttachments s) fun _ _ => .bind (leads_showPosition s) fun _ _ => ?_
    split
    · exact .tell _
    · exact .pure trivial
  exact (hrest (toldOf s r) rfl).1

/-! ## The opening of a submission -/

theorem Desk.settle_of_idle {d : Desk ω} (h : d.jobs = []) : d.settle = d := by
  obtain ⟨remote, cache, jobs⟩ := d
  obtain rfl : jobs = [] := h
  rfl

/-- An answer with a gap among the attachments. -/
def GapIn (outcome : Outcome) : Prop :=
  ∃ text items, outcome = .ok (some text) ∧
    Json.decode? none Attachment.fillAll text.toList = some (some items) ∧ none ∈ items

/-- What a session lacks is what the answers lack. -/
theorem lacks_start_iff {p : SessionParams} {paths : Session.Paths} {s : Submission}
    {attachments list : Outcome} {c : Cache}
    (hloading : (c.peek paths.attachments).loading = false)
    (hdata : ∀ text, (c.peek paths.attachments).data = some text ↔ attachments = .ok (some text)) :
    (Session.start p paths s (Desk.listedIn list).1 (Desk.listedIn list).2).Lacks c ↔
      GapIn attachments ∨ ∃ data items, list = .ok data ∧ Siblings.ofData? data = some items ∧
        GapBefore (fun x => x.id = s.id) items := by
  rw [lacks_iff, Session.attachments_eq_error_iff, position?_gap_iff]
  refine or_congr ?_ ?_
  · refine exists_congr fun text => exists_congr fun items => ?_
    show (c.peek paths.attachments).loading = false ∧ (c.peek paths.attachments).data = some text ∧
      _ ↔ _
    rw [hdata text, hloading, eq_self, true_and]
  · show (Desk.listedIn list).2 = none ∧ GapBefore _ (Desk.listedIn list).1 ↔ _
    cases list with
    | error e => simp [Desk.listedIn]
    | ok data =>
        cases hitems : Siblings.ofData? data with
        | none => simp [Desk.listedIn, hitems, GapBefore]
        | some items => simp [Desk.listedIn, hitems, Session.start]

theorem gapAt_iff {paths : Session.Paths} {calls : List RemoteCall} {answered : List Outcome}
    {detail list : Outcome} (hpaths : Session.Paths.of (params plan id) = .ok paths)
    (hattachments : answers paths.attachments calls = answered)
    (hdetail : answers paths.detail calls = [detail]) (hlist : answers paths.list calls = [list]) :
    plan.GapAt id calls ↔ (∃ outcome ∈ answered, GapIn outcome) ∨
      ∃ s data items, loadedFrom? detail = some s ∧ list = .ok data ∧
        Siblings.ofData? data = some items ∧ GapBefore (fun x => x.id = s.id) items := by
  obtain ⟨-, hlistPath, -⟩ := (Session.Paths.of_eq_ok_iff _ _).mp hpaths
  have hentries (items : List (Option Summary)) : plan.Entries calls items ↔ _ :=
    ReviewPlan.entries_iff hlistPath hlist items
  subst hattachments
  constructor
  · rintro (@⟨other, text, items, hother, hanswered, hread, hmissing⟩ |
      @⟨other, outcome, s, items, hother, hanswered, hloaded, hlisted, hgap⟩)
    · obtain rfl := Except.ok.inj (hpaths.symm.trans hother)
      exact .inl ⟨_, hanswered, text, items, rfl, hread, hmissing⟩
    · obtain rfl := Except.ok.inj (hpaths.symm.trans hother)
      rw [hdetail, List.mem_singleton] at hanswered
      subst hanswered
      obtain ⟨data, hdata, hitems⟩ := (hentries items).mp hlisted
      exact .inr ⟨s, data, items, hloaded, hdata, hitems, hgap⟩
  · rintro (⟨outcome, hanswered, text, items, rfl, hread, hmissing⟩ |
      ⟨s, data, items, hloaded, hdata, hitems, hgap⟩)
    · exact .attachment hpaths hanswered hread hmissing
    · exact .sibling hpaths (hdetail ▸ List.mem_singleton_self _) hloaded
        ((hentries items).mpr ⟨data, hdata, hitems⟩) hgap

/-- A reviewer at which a submission can be opened as the first one: its paths were left alone, and
the list was not asked for, or has entries. -/
structure Ready (plan : ReviewPlan) (id : String) (r : Reviewer (Recorded ω)) : Prop where
  idle : r.desk.jobs = []
  paths : ∀ paths, Session.Paths.of (params plan id) = .ok paths →
    r.desk.Awaits paths.attachments 0 ∧ answers paths.detail r.desk.calls = []
  list : ∀ path, Endpoint.list plan.request.project plan.request.batch = .ok path →
    r.desk.Prepared path

/-- An opening that crashes where the answers have a gap, and is in order where they have none. -/
def CrashesAt {α : Type} (gap : Prop) (outcome : Except ReviewStop α) : Prop :=
  (gap → outcome = .error (.failed .crash)) ∧ (¬ gap → InOrder outcome)

/-- A session is shown, and the verdicts are fetched, or it lacks something. -/
theorem crashesAt_present (s : Session) (r : Reviewer (Recorded ω)) :
    let opened := (present s >>= fun _ => offer s).run.run r
    CrashesAt (s.Lacks r.desk.settle.cache) opened.1 ∧
      ∀ path, Endpoint.statuses ≠ path →
        answers path opened.2.desk.calls = answers path r.desk.settle.calls := by
  intro opened
  have hdesk := desk_present s r
  have hcrash := present_crashes (s := s) (r := r)
  have hshown := exists_present (s := s) (r := r)
  have hopened : opened = (present s >>= fun _ => offer s).run.run r := rfl
  rw [run_bind] at hopened
  rcases hrun : (present s).run.run r with ⟨stop | _, shown⟩
  · rw [hrun] at hdesk hcrash hshown hopened
    replace hopened : opened = (.error stop, shown) := hopened
    rw [hopened]
    refine ⟨⟨fun hlacks => ?_, fun hlacks => ?_⟩, fun path _ => ?_⟩
    · exact congrArg Except.error (Except.error.inj (hcrash hlacks))
    · obtain ⟨_, hok⟩ := hshown hlacks
      cases hok
    · rw [← hdesk]
  · rw [hrun] at hdesk hcrash hopened
    replace hopened : opened = (offer s).run.run shown := hopened
    rw [hopened]
    refine ⟨⟨fun hlacks => ?_, fun _ => inOrder_offer s shown⟩, fun path hne => ?_⟩
    · cases hcrash hlacks
    rw [offer_run, ← hdesk]
    show answers path (shown.desk.get Endpoint.statuses).1.calls = _
    rw [(Desk.fetched_get _ _).calls, answers_fetched_of_ne _ _ hne]

/-- A submission that was loaded is opened, or the answers have a gap for it. -/
theorem crashesAt_loaded {paths : Session.Paths} {s : Submission} {t : Session}
    {detail list : Outcome}
    (hpaths : Session.Paths.of (params plan id) = .ok paths)
    (hawaits : r.desk.Awaits paths.attachments 1)
    (hdetail : answers paths.detail r.desk.calls = [detail])
    (hlist : answers paths.list r.desk.calls = [list]) (hloaded : loadedFrom? detail = some s)
    (ht : t = Session.start (params plan id) paths { s with parts := s.parts.map Part.sort }
      (Desk.listedIn list).1 (Desk.listedIn list).2) :
    let opened := (present t >>= fun _ => offer t).run.run r
    answers paths.list opened.2.desk.calls = [list] ∧
      CrashesAt (plan.GapAt id opened.2.desk.calls) opened.1 := by
  intro opened
  obtain ⟨hdetailPath, hlistPath, hattachmentsPath⟩ :=
    (Session.Paths.of_eq_ok_iff _ _).mp hpaths
  obtain ⟨hcalls, hloading, hdata⟩ := hawaits.settle
  obtain ⟨hcrashes, hkept⟩ := crashesAt_present t r
  have hlists : answers paths.list opened.2.desk.calls = [list] := by
    rw [hkept _ (Endpoint.list_ne_statuses hlistPath), hcalls, answers_fetched_of_ne _ _
      (Endpoint.list_ne_of_prefix hlistPath (Endpoint.prefix_of_attachments hattachmentsPath))]
    exact hlist
  have hdetails : answers paths.detail opened.2.desk.calls = [detail] := by
    rw [hkept _ (Endpoint.statuses_ne_of_prefix (Endpoint.prefix_of_detail hdetailPath)), hcalls,
      answers_fetched_of_ne _ _ (Endpoint.detail_ne_attachments hdetailPath hattachmentsPath).symm]
    exact hdetail
  have hattachments : answers paths.attachments opened.2.desk.calls =
      [(Remote.fetch r.desk.remote paths.attachments).2] := by
    rw [hkept _ (Endpoint.statuses_ne_of_prefix (Endpoint.prefix_of_attachments hattachmentsPath)),
      hcalls, answers_fetched_self, hawaits.answers]
  refine ⟨hlists, ?_⟩
  -- what the session lacks is read off the same answers as the gap
  have hgap : plan.GapAt id opened.2.desk.calls ↔ t.Lacks r.desk.settle.cache := by
    rw [gapAt_iff hpaths hattachments hdetails hlists, ht, lacks_start_iff hloading hdata]
    simp [hloaded]
  rw [hgap]
  exact hcrashes

/-- A submission is opened, or the answers have a gap for it. The list is asked for only if it was
not asked for before. -/
theorem crashesAt_openAt (hready : Ready plan id r) :
    let opened := (openAt plan id).run.run r
    (∀ path, Endpoint.list plan.request.project plan.request.batch = .ok path →
      ∀ known ∈ answers path r.desk.calls, answers path opened.2.desk.calls = [known]) ∧
    CrashesAt (plan.GapAt id opened.2.desk.calls) opened.1 := by
  intro opened
  have hopened : opened = (openAt plan id).run.run r := rfl
  unfold openAt at hopened
  rw [run_bind, mount_run, Desk.settle_of_idle hready.idle] at hopened
  cases hpaths : Session.Paths.of (params plan id) with
  | error e =>
      -- nothing is asked for at all
      rw [Session.mount_of_unbuilt hpaths] at hopened
      rw [hopened]
      refine ⟨fun path hpath known hknown => ?_, fun hgap => ?_, fun _ => .unloaded _⟩
      · show answers path r.desk.calls = [known]
        cases hready.list path hpath with
        | unasked hanswers _ =>
            rw [hanswers] at hknown
            cases hknown
        | asked hanswers _ _ =>
            rw [hanswers, List.mem_singleton] at hknown
            rw [hanswers, hknown]
      · cases hgap with
        | attachment hbuilt => cases hpaths.symm.trans hbuilt
        | sibling hbuilt => cases hpaths.symm.trans hbuilt
  | ok paths =>
      obtain ⟨hawaits, hdetail⟩ := hready.paths paths hpaths
      obtain ⟨-, hlistPath, -⟩ := (Session.Paths.of_eq_ok_iff _ _).mp hpaths
      obtain ⟨hawaited, detail, list, hdetails, hlists, hknown, hloads, hunloaded⟩ :=
        Session.answers_of_mount hpaths rfl hawaits hdetail (hready.list _ hlistPath)
      cases hloaded : loadedFrom? detail with
      | none =>
          obtain ⟨e, he⟩ := hunloaded hloaded
          rw [he] at hopened
          replace hopened : opened = (.error (.failed (.load e)),
            { r with desk := (Session.mount r.desk (params plan id)).1 }) := hopened
          rw [hopened]
          refine ⟨fun path hpath known hmem => ?_, fun hgap => ?_, fun _ => .unloaded _⟩
          · obtain rfl := Except.ok.inj (hlistPath.symm.trans hpath)
            rw [hknown known hmem]
            exact hlists
          · rw [gapAt_iff hpaths hawaited.answers hdetails hlists] at hgap
            simp [hloaded] at hgap
      | some s =>
          obtain ⟨t, ht⟩ : ∃ t, t = Session.start (params plan id) paths
            { s with parts := s.parts.map Part.sort } (Desk.listedIn list).1
            (Desk.listedIn list).2 := ⟨_, rfl⟩
          obtain ⟨mounted, hmounted⟩ : ∃ mounted : Reviewer (Recorded ω), mounted =
            { r with desk := (Session.mount r.desk (params plan id)).1 } := ⟨_, rfl⟩
          have hdesk : mounted.desk = (Session.mount r.desk (params plan id)).1 := by rw [hmounted]
          rw [hloads s hloaded, ← ht, ← hmounted] at hopened
          rw [← hdesk] at hawaited hdetails hlists
          replace hopened : opened = (present t >>= fun _ => offer t).run.run mounted := hopened
          obtain ⟨hlist, hcrashes⟩ :=
            crashesAt_loaded hpaths hawaited hdetails hlists hloaded ht
          rw [hopened]
          refine ⟨fun path hpath known hmem => ?_, hcrashes⟩
          obtain rfl := Except.ok.inj (hlistPath.symm.trans hpath)
          rw [hknown known hmem]
          exact hlist

/-! ## The opening of a review -/

omit [Remote ω] in
theorem ready_fresh (plan : ReviewPlan) (id : String) (terminal : Terminal) (service : ω) :
    Ready plan id (.fresh terminal service) where
  idle := rfl
  paths _ _ := ⟨Desk.awaits_fresh terminal service _, rfl⟩
  list _ _ := .unasked rfl rfl

/-- After a list with entries was asked for, a submission can be opened as the first one. -/
theorem ready_listed {terminal : Terminal} {service : ω} {path : String}
    (hpath : Endpoint.list plan.request.project plan.request.batch = .ok path)
    {data : Option String} {item : Option Summary} {items : List (Option Summary)}
    (hfetch : (Remote.fetch (fresh terminal service).desk.remote path).2 = .ok data)
    (hitems : Siblings.ofData? data = some (item :: items)) (id : String) :
    Ready plan id { fresh terminal service with
      desk := ((fresh terminal service).desk.get path).1 } where
  idle := rfl
  paths := by
    intro paths hpaths
    obtain ⟨hdetail, hlist, hattachments⟩ := (Session.Paths.of_eq_ok_iff _ _).mp hpaths
    obtain rfl := Except.ok.inj (hpath.symm.trans hlist)
    refine ⟨(Desk.awaits_fresh terminal service _).get
      (Endpoint.list_ne_of_prefix hlist (Endpoint.prefix_of_attachments hattachments)).symm, ?_⟩
    show answers paths.detail (Desk.get _ paths.list).1.calls = []
    rw [(Desk.fetched_get _ _).calls, answers_fetched_of_ne _ _
      (Endpoint.list_ne_of_prefix hlist (Endpoint.prefix_of_detail hdetail)).symm]
    rfl
  list := by
    intro other hother
    obtain rfl := Except.ok.inj (hpath.symm.trans hother)
    have hfetched := Desk.fetched_get (fresh terminal service).desk path
    refine .asked ?_ (hfetched.cached hfetch) hitems
    show answers path (Desk.get _ path).1.calls = _
    rw [hfetched.calls, answers_fetched_self, hfetch]
    rfl

theorem ofData?_eq_some_iff {data : Option String} {items : List (Option Summary)} :
    Siblings.ofData? data = some items ↔ ∃ text list, data = some text ∧
      Json.decode? {} SummaryList.fill text.toList = some list ∧ list.results = some items := by
  unfold Siblings.ofData?
  simp only [bind, Option.bind_eq_some_iff, exists_and_left]

/-- A list that was answered is searched for its first open entry. -/
theorem startOf_of_entries {d : Desk ω} {path : String} {data : Option String}
    {items : List (Option Summary)} (hfetch : (Remote.fetch d.remote path).2 = .ok data)
    (hitems : Siblings.ofData? data = some items) :
    startOf (d.get path).2 = (firstOpen? items).mapError fun _ => .failed .crash := by
  obtain ⟨text, list, rfl, hread, hresults⟩ := ofData?_eq_some_iff.mp hitems
  obtain ⟨herror, hdata⟩ := Desk.get_of_fetched hfetch
  simp only [startOf, herror, hdata, Option.getD_some, hread, hresults]

/-- Where no list with entries was answered, there is nothing to open. -/
theorem startOf_of_no_entries {d : Desk ω} {path : String}
    (h : ∀ data items, (Remote.fetch d.remote path).2 = .ok data →
      Siblings.ofData? data ≠ some items) :
    startOf (d.get path).2 = .ok none ∨
      ∃ cause, startOf (d.get path).2 = .error (.failed (.load cause)) := by
  have hempty : Json.decode? {} SummaryList.fill "".toList = none := by decide +kernel
  unfold startOf
  cases herror : (d.get path).2.error with
  | some e => exact .inr ⟨_, rfl⟩
  | none =>
      have hfetch := Desk.fetched_of_get herror
      cases hread : Json.decode? {} SummaryList.fill ((d.get path).2.data.getD "").toList with
      | none => exact .inr ⟨_, rfl⟩
      | some list =>
          cases hresults : list.results with
          | none =>
              simp only [hresults]
              exact .inl rfl
          | some items =>
              -- an answer without a text is no list
              cases hdata : (d.get path).2.data with
              | none =>
                  rw [hdata] at hread
                  cases hempty.symm.trans hread
              | some text =>
                  rw [hdata] at hread hfetch
                  exact absurd (ofData?_eq_some_iff.mpr ⟨text, list, rfl, hread, hresults⟩)
                    (h _ items hfetch)

theorem start_unasked (hid : plan.request.id = "") {path : String}
    (hpath : Endpoint.list plan.request.project plan.request.batch = .ok path) (r : Reviewer ω) :
    (start plan).run.run r =
      match startOf (r.desk.get path).2 with
      | .ok (some id) => (.ok (Text.ofInt id), { r with desk := (r.desk.get path).1 })
      | .ok none => (.error .finished,
          { r with
            desk := (r.desk.get path).1
            terminal := r.terminal.tell (·.info ("Nothing left to review in " ++
              plan.request.project ++ "/" ++ plan.request.batch ++ ".")) })
      | .error stop => (.error stop, { r with desk := (r.desk.get path).1 }) := by
  unfold start
  rw [if_neg (by simp [hid]), run_bind, firstPending_eq hpath]
  rcases startOf (r.desk.get path).2 with stop | _ | id <;> rfl

theorem start_unlisted (hid : plan.request.id = "") {e : RouteError}
    (hpath : Endpoint.list plan.request.project plan.request.batch = .error e) (r : Reviewer ω) :
    (start plan).run.run r = (.error (.failed (.load (.route e))), r) := by
  unfold start firstPending
  rw [if_neg (by simp [hid]), hpath]
  rfl

/-- Without a list there is no gap in the way of a review that searches one. -/
theorem not_gap_of_no_entries {calls : List RemoteCall} (hid : plan.request.id = "")
    (hnone : ∀ items, ¬ plan.Entries calls items) : ¬ plan.Gap calls := by
  rintro (⟨-, hentries, -⟩ | ⟨hopens, -⟩)
  · exact hnone _ hentries
  · cases hopens with
    | given hasked => exact hasked hid
    | listed _ hentries _ => exact hnone _ hentries

/-- A review that searches a list meets the gaps of this list, and those of its first open entry. -/
theorem gap_iff_of_entries {calls : List RemoteCall} {items : List (Option Summary)}
    (hid : plan.request.id = "") (hitems : ∀ other, plan.Entries calls other ↔ other = items) :
    plan.Gap calls ↔ (∃ e, firstOpen? items = .error e) ∨
      ∃ id, firstOpen? items = .ok (some id) ∧ plan.GapAt (Text.ofInt id) calls := by
  constructor
  · rintro (⟨-, hentries, hgap⟩ | ⟨hopens, hgap⟩)
    · obtain rfl := (hitems _).mp hentries
      exact .inl ((firstOpen?_eq_error_iff _).mpr hgap)
    · cases hopens with
      | given hasked => exact absurd hid hasked
      | listed _ hentries hfirst =>
          obtain rfl := (hitems _).mp hentries
          exact .inr ⟨_, hfirst, hgap⟩
  · rintro (herror | ⟨id, hfirst, hgap⟩)
    · exact .entry hid ((hitems items).mpr rfl) ((firstOpen?_eq_error_iff _).mp herror)
    · exact .submission (.listed hid ((hitems items).mpr rfl) hfirst) hgap

theorem answers_get_fresh (terminal : Terminal) (service : ω) (path : String) :
    answers path ((fresh terminal service).desk.get path).1.calls =
      [(Remote.fetch (fresh terminal service).desk.remote path).2] := by
  rw [(Desk.fetched_get _ _).calls, answers_fetched_self]
  rfl

section Unasked

variable {terminal : Terminal} {service : ω} {path : String}

/-- A review that searches a list without entries has nothing to open, and meets no gap. -/
theorem crashesAt_unlisted (hid : plan.request.id = "")
    (hpath : Endpoint.list plan.request.project plan.request.batch = .ok path)
    (hunlisted : ∀ data items,
      (Remote.fetch (fresh terminal service).desk.remote path).2 = .ok data →
        Siblings.ofData? data ≠ some items) :
    let opened := (opening plan).run.run (fresh terminal service)
    CrashesAt (plan.Gap opened.2.desk.calls) opened.1 := by
  intro opened
  have hopened : opened = (opening plan).run.run (fresh terminal service) := rfl
  unfold opening at hopened
  rw [run_bind, start_unasked hid hpath] at hopened
  have hnone := startOf_of_no_entries hunlisted
  have hdesk : opened.2.desk = ((fresh terminal service).desk.get path).1 := by
    rw [hopened]
    rcases hnone with hstart | ⟨cause, hstart⟩ <;> rw [hstart]
  have hends : InOrder opened.1 := by
    rw [hopened]
    rcases hnone with hstart | ⟨cause, hstart⟩ <;> rw [hstart]
    · exact .finished
    · exact .unloaded cause
  refine ⟨fun hgap => absurd hgap (not_gap_of_no_entries hid fun items hentries => ?_),
    fun _ => hends⟩
  rw [hdesk] at hentries
  obtain ⟨data, hfetch, hitems⟩ :=
    (ReviewPlan.entries_iff hpath (answers_get_fresh terminal service path) items).mp hentries
  exact hunlisted data items hfetch hitems

/-- A review that searches a list with entries opens the first open one, if there is one and no gap
is before it. -/
theorem crashesAt_listed (hid : plan.request.id = "")
    (hpath : Endpoint.list plan.request.project plan.request.batch = .ok path)
    {data : Option String} {items : List (Option Summary)}
    (hfetch : (Remote.fetch (fresh terminal service).desk.remote path).2 = .ok data)
    (hitems : Siblings.ofData? data = some items) :
    let opened := (opening plan).run.run (fresh terminal service)
    CrashesAt (plan.Gap opened.2.desk.calls) opened.1 := by
  intro opened
  have hopened : opened = (opening plan).run.run (fresh terminal service) := rfl
  unfold opening at hopened
  rw [run_bind, start_unasked hid hpath, startOf_of_entries hfetch hitems] at hopened
  have hanswers := answers_get_fresh terminal service path
  rw [hfetch] at hanswers
  -- as long as the list is not asked for again, it is the one that was searched
  have hsame {calls : List RemoteCall} (hcalls : answers path calls = [.ok data])
      (other : List (Option Summary)) : plan.Entries calls other ↔ other = items := by
    rw [ReviewPlan.entries_iff hpath hcalls]
    constructor
    · rintro ⟨_, heq, hother⟩
      obtain rfl := Except.ok.inj heq
      exact Option.some.inj (hother.symm.trans hitems)
    · rintro rfl
      exact ⟨data, rfl, hitems⟩
  rcases hfirst : firstOpen? items with e | _ | id
  · -- a gap is met
    rw [hfirst] at hopened
    replace hopened : opened = (.error (.failed .crash), { fresh terminal service with
      desk := ((fresh terminal service).desk.get path).1 }) := hopened
    rw [hopened]
    refine ⟨fun _ => rfl, fun hgap => absurd ?_ hgap⟩
    exact (gap_iff_of_entries hid (hsame hanswers)).mpr (.inl ⟨e, hfirst⟩)
  · -- nothing is open
    rw [hfirst] at hopened
    have hends : opened.1 = .error .finished := by
      rw [hopened]
      rfl
    have hdesk : opened.2.desk = ((fresh terminal service).desk.get path).1 := by
      rw [hopened]
      rfl
    rw [hends, hdesk]
    refine ⟨fun hgap => ?_, fun _ => .finished⟩
    rcases (gap_iff_of_entries hid (hsame hanswers)).mp hgap with ⟨e, he⟩ | ⟨id, hsome, -⟩
    · cases hfirst.symm.trans he
    · cases hfirst.symm.trans hsome
  · rw [hfirst] at hopened
    replace hopened : opened = (openAt plan (Text.ofInt id)).run.run
      { fresh terminal service with
        desk := ((fresh terminal service).desk.get path).1 } := hopened
    obtain ⟨item, rest, rfl⟩ : ∃ item rest, items = item :: rest := by
      refine List.exists_cons_of_ne_nil ?_
      rintro rfl
      cases hfirst
    obtain ⟨hkept, hcrashes⟩ :=
      crashesAt_openAt (ready_listed hpath hfetch hitems (Text.ofInt id))
    rw [← hopened] at hkept hcrashes
    have hlist := hkept path hpath (.ok data) (by rw [hanswers]; exact List.mem_singleton_self _)
    have hgap : plan.Gap opened.2.desk.calls ↔
        plan.GapAt (Text.ofInt id) opened.2.desk.calls := by
      rw [gap_iff_of_entries hid (hsame hlist), hfirst]
      simp
    rw [hgap]
    exact hcrashes

/-- The opening of a review that searches its list. -/
theorem crashesAt_unasked (hid : plan.request.id = "")
    (hpath : Endpoint.list plan.request.project plan.request.batch = .ok path) :
    let opened := (opening plan).run.run (fresh terminal service)
    CrashesAt (plan.Gap opened.2.desk.calls) opened.1 := by
  by_cases hlisted : ∃ data items, (Remote.fetch (fresh terminal service).desk.remote path).2 =
      .ok data ∧ Siblings.ofData? data = some items
  · obtain ⟨data, items, hfetch, hitems⟩ := hlisted
    exact crashesAt_listed hid hpath hfetch hitems
  · exact crashesAt_unlisted hid hpath fun data items hfetch hitems =>
      hlisted ⟨data, items, hfetch, hitems⟩

end Unasked

/-- A review opens, unless the answers have a gap in its way. -/
theorem crashesAt_opening (plan : ReviewPlan) (terminal : Terminal) (service : ω) :
    let opened := (opening plan).run.run (fresh terminal service)
    CrashesAt (plan.Gap opened.2.desk.calls) opened.1 := by
  by_cases hid : plan.request.id = ""
  · cases hpath : Endpoint.list plan.request.project plan.request.batch with
    | ok path => exact crashesAt_unasked hid hpath
    | error e =>
        intro opened
        have hopened : opened = (.error (.failed (.load (.route e))), fresh terminal service) := by
          show (opening plan).run.run (fresh terminal service) = _
          unfold opening
          rw [run_bind, start_unlisted hid hpath]
        rw [hopened]
        exact ⟨fun hgap => absurd hgap (not_gap_of_no_entries hid (ReviewPlan.not_entries
          fun path h => nomatch hpath.symm.trans h)), fun _ => .unloaded _⟩
  · intro opened
    have hopened : opened = (openAt plan plan.request.id).run.run (fresh terminal service) := by
      show (opening plan).run.run (fresh terminal service) = _
      unfold opening
      rw [start_of_given hid]
      rfl
    obtain ⟨-, hcrashes⟩ := crashesAt_openAt (ready_fresh plan plan.request.id terminal service)
    rw [← hopened] at hcrashes
    have hgap : plan.Gap opened.2.desk.calls ↔
        plan.GapAt plan.request.id opened.2.desk.calls := by
      constructor
      · rintro (⟨hempty, -, -⟩ | ⟨hopens, hgap⟩)
        · exact absurd hempty hid
        · rwa [(ReviewPlan.opens_given hid _).mp hopens] at hgap
      · exact .submission (.given hid)
    rw [hgap]
    exact hcrashes

theorem reviewOne_of_crashed {r r' : Reviewer ω}
    (h : (openAt plan id).run.run r = (.error (.failed .crash), r')) :
    (reviewOne plan id).run.run r = (.error (.failed .crash), r') := by
  unfold openAt at h
  unfold reviewOne
  rw [run_bind] at h ⊢
  rcases hmount : (mount plan id).run.run r with ⟨stop | s, mounted⟩
  · rw [hmount] at h
    obtain ⟨hstop, rfl⟩ := Prod.mk.inj h
    rw [Except.error.inj hstop]
  · rw [hmount] at h
    replace h : (present s >>= fun _ => offer s).run.run mounted = _ := h
    show (present s >>= _).run.run mounted = _
    rw [run_bind] at h ⊢
    rcases hpresent : (present s).run.run mounted with ⟨stop | _, shown⟩
    · rw [hpresent] at h
      obtain ⟨hstop, rfl⟩ := Prod.mk.inj h
      rw [Except.error.inj hstop]
    · -- fetching the verdicts does not crash
      rw [hpresent] at h
      replace h : (offer s).run.run shown = _ := h
      have hinOrder := inOrder_offer s shown
      rw [h] at hinOrder
      cases hinOrder

/-- An opening that crashes is the end of its review. -/
theorem run_of_crashed {r r' : Reviewer ω}
    (h : (opening plan).run.run r = (.error (.failed .crash), r')) :
    run plan r = (r', some .crash) := by
  unfold opening at h
  rw [run_bind] at h
  unfold run
  simp only [run_bind, run_get]
  rcases hstart : (start plan).run.run r with ⟨stop | id, started⟩
  · rw [hstart] at h
    obtain ⟨hstop, rfl⟩ := Prod.mk.inj h
    rw [Except.error.inj hstop]
  · rw [hstart] at h
    have hwalk (fuel : Nat) : (walk plan (fuel + 1) id).run.run started =
        (.error (.failed .crash), r') := by
      unfold walk
      rw [run_bind, reviewOne_of_crashed h]
    simp only [hwalk]

end Reviewer

open Reviewer

/-- **Gaps are all that stops the opening of a review.** Whatever a service answers, a review opens:
it comes to the verdicts that are offered, it ends because nothing is left, or it says what could
not be loaded. The one exception are answers with a gap: a list with a missing entry before its
first open one, when the list is searched; a list with a missing entry before the one of the
submission; and attachments of which one is missing. At these the opening crashes, and with it the
review. -/
theorem opening_crashes_at_gaps [Remote ω] (plan : ReviewPlan) (terminal : Terminal)
    (service : ω) :
    let r := Reviewer.fresh terminal service
    let opened := (opening plan).run.run r
    (plan.Gap opened.2.desk.calls → opened.1 = .error (.failed .crash) ∧
      Reviewer.run plan r = (opened.2, some .crash)) ∧
    (¬ plan.Gap opened.2.desk.calls → InOrder opened.1) := by
  intro r opened
  obtain ⟨hcrash, hinOrder⟩ := crashesAt_opening plan terminal service
  refine ⟨fun hgap => ?_, hinOrder⟩
  have hends := hcrash hgap
  exact ⟨hends, run_of_crashed (Prod.ext hends rfl)⟩

/-- A service with one submission, with these entries in its list and these attachments. -/
def Pages.opened (entries attachments : String) : Pages where
  pages :=
    [("/api/v1/projects/p/batches/b/submissions", "\x7b\"results\":" ++ entries ++ "\x7d"),
     ("/api/v1/submissions/1", "\x7b\"id\":1\x7d"),
     ("/api/v1/submissions/1/attachments", attachments)]

/-- A review of this submission, if it is asked for, or of the first one that is open. -/
def ReviewPlan.opened (id : String) : ReviewPlan where
  request := { project := "p", batch := "b", id }
  preferences := .ofSettings "" "" [] []

/-- A batch whose one entry is missing is searched for its first open submission. -/
theorem opening_crashes_at_missing_entry :
    (Reviewer.run (.opened "") (.fresh {} (Pages.opened "[null]" "[]"))).2 = some .crash := by
  obtain ⟨hcrash, -⟩ := opening_crashes_at_gaps (.opened "") {} (Pages.opened "[null]" "[]")
  have hentries : (ReviewPlan.opened "").Entries
      ((opening (.opened "")).run.run (.fresh {} (Pages.opened "[null]" "[]"))).2.desk.calls
      [none] :=
    ⟨"/api/v1/projects/p/batches/b/submissions", some "\x7b\"results\":[null]\x7d",
      by decide +kernel, by decide +kernel, by decide +kernel⟩
  have hgap := ReviewPlan.Gap.entry rfl hentries (gapBefore_cons_none _ _)
  exact congrArg Prod.snd (hcrash hgap).2

/-- Each of the three gaps stops a review. -/
theorem review_crashes_at_null :
    (Reviewer.run (.opened "") (.fresh {} (Pages.opened "[null]" "[]"))).2 = some .crash ∧
      (Reviewer.run (.opened "1")
        (.fresh {} (Pages.opened "[null,\x7b\"id\":1\x7d]" "[]"))).2 = some .crash ∧
      (Reviewer.run (.opened "1")
        (.fresh {} (Pages.opened "[\x7b\"id\":1\x7d]" "[null]"))).2 = some .crash := by
  refine ⟨?_, ?_, ?_⟩ <;> decide +kernel

end ReviewQueue
