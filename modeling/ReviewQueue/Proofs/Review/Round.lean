import ReviewQueue.Proofs.Review.Approval
import ReviewQueue.Proofs.Review.Landed
import ReviewQueue.Proofs.Review.Queue

/-!
# A round of a review

In a round a submission is loaded, edited and saved, and the next one is read out of the path to
which the session navigates. At a submission of the queue, `Reviewer.Round.step` says what a round
does.

* `Reviewer.start_of_mount`, `Reviewer.session_of_mount` — the session of a submission of the queue;
* `Reviewer.followed_of_saved` — the next submission comes after it in the queue;
* `Reviewer.Round.step` — what a round does;
* `Reviewer.exists_round` — when there is one.
-/

namespace ReviewQueue

open Http

/-! ## The steps of a round -/

namespace Reviewer

section Steps

variable [Remote ω] {plan : ReviewPlan} {r r' : Reviewer ω} {id : String} {s : Session}

theorem mount_run (plan : ReviewPlan) (id : String) (r : Reviewer ω) :
    (mount plan id).run.run r =
      ((Session.mount r.desk.settle (params plan id)).2.mapError fun e => .failed (.load e),
        { r with desk := (Session.mount r.desk.settle (params plan id)).1 }) := by
  unfold mount
  simp only [run_bind, run_get, run_set]
  cases (Session.mount r.desk.settle (params plan id)).2 <;> rfl

theorem mount_eq_ok (h : (mount plan id).run.run r = (.ok s, r')) :
    Session.mount r.desk.settle (params plan id) = (r'.desk, .ok s) ∧
      r'.executor = r.executor := by
  rw [mount_run] at h
  obtain ⟨hsession, rfl⟩ := Prod.mk.inj h
  refine ⟨Prod.ext rfl ?_, rfl⟩
  cases hloaded : (Session.mount r.desk.settle (params plan id)).2 with
  | error e =>
      rw [hloaded] at hsession
      cases hsession
  | ok loaded =>
      rw [hloaded] at hsession
      cases hsession
      rfl

theorem submit_run (s : Session) (r : Reviewer ω) :
    (submit s).run.run r =
      (.ok ((s.submit r.executor r.desk).result.map fun _ =>
          destination? (s.submit r.executor r.desk).calls),
        { r with
          terminal := r.terminal.tell (tellCalls (s.submit r.executor r.desk).calls)
          desk := (s.submit r.executor r.desk).desk
          executor := (s.submit r.executor r.desk).executor }) := rfl

theorem submit_eq_ok {path : Option String} (h : (submit s).run.run r = (.ok (.ok path), r')) :
    (s.submit r.executor r.desk).result = .ok () ∧
      path = destination? (s.submit r.executor r.desk).calls ∧
      r'.desk = (s.submit r.executor r.desk).desk ∧
      r'.executor = (s.submit r.executor r.desk).executor := by
  rw [submit_run] at h
  obtain ⟨hresult, rfl⟩ := Prod.mk.inj h
  cases hsaved : (s.submit r.executor r.desk).result with
  | error e =>
      rw [hsaved] at hresult
      cases hresult
  | ok u =>
      rw [hsaved] at hresult
      cases hresult
      exact ⟨rfl, rfl, rfl, rfl⟩

end Steps

/-- Where nothing was navigated to, the queue has ended. -/
theorem followed_none (template : String) (r : Reviewer ω) :
    (followed template none).run.run r =
      (.error .finished, { r with terminal := r.terminal.tell (·.info "End of queue.") }) := rfl

theorem followed_some {template path id : String} (hpath : path ≠ "")
    (hread : Route.readSubmissionId template path = .ok id) (r : Reviewer ω) :
    (followed template (some path)).run.run r = (.ok id, r) := by
  unfold followed
  split
  · cases ‹some path = none›
  · rename_i hempty
    exact absurd (Option.some.inj hempty) hpath
  · rename_i heq
    obtain rfl := Option.some.inj heq
    rw [hread]
    rfl

/-- A save that succeeded goes where the session navigates to. -/
theorem destination?_of_written [Remote ω] {s : Session} {d : Desk ω} {remote : ω}
    {data : Option String} {saved : Session.Submitted ω} (h : s.Written d remote data saved) :
    destination? saved.calls = s.navigator.advance? := by
  rw [h.calls]
  cases s.navigator.advance? <;> rfl

end Reviewer

/-- The path of the default template to a submission, which is read back. -/
theorem Navigator.advance?_default {project batch : String} (hproject : IsName project)
    (hbatch : IsName batch) (previous : Option Int) (next : Int) :
    ∃ path, Navigator.advance?
        { template := Route.defaultTemplate
          params := [(Route.projectId, project), (Route.batchId, batch)]
          next := some next
          previous } = some path ∧ path ≠ "" ∧
      Route.readSubmissionId Route.defaultTemplate path = .ok (Text.ofInt next) := by
  let values : Params :=
    [(Route.submissionId, Text.ofInt next), (Route.projectId, project), (Route.batchId, batch)]
  have hid : PathTemplate.lookup? values Route.submissionId.toList = some (Text.ofInt next) :=
    Route.lookup?_head _ (Route.ofInt_ne_empty next) _
  have hprojectValue : PathTemplate.lookup? values Route.projectId.toList = some project := by
    rw [Route.lookup?_tail (by decide), Route.lookup?_head _ hproject.1]
  have hbatchValue : PathTemplate.lookup? values Route.batchId.toList = some batch := by
    rw [Route.lookup?_tail (by decide), Route.lookup?_tail (by decide),
      Route.lookup?_head _ hbatch.1]
  have hclean :
      ∀ name ∈ PathTemplate.names ⟨Route.defaultRest⟩, PathTemplate.IsClean values name := by
    rw [Route.names_default]
    simp only [List.forall_mem_cons, List.not_mem_nil, false_implies, implies_true, and_true]
    exact ⟨Route.isClean_name hprojectValue hproject, Route.isClean_name hbatchValue hbatch,
      Route.isClean_name hid (isName_ofInt next)⟩
  have hbuild := Route.build_default.mpr ⟨hclean, rfl⟩
  refine ⟨_, ?_, ?_, Route.readSubmissionId_default hid hbuild⟩
  · rw [Navigator.advance?, Navigator.goNext, Navigator.pathTo, hbuild]
    rfl
  · intro hempty
    have hlist := congrArg String.toList hempty
    rw [String.toList_ofList] at hlist
    cases hlist

namespace Reviewer

/-! ## One round -/

/-- A round of a review: a submission is loaded, edited so that all verdicts are final, and saved,
with any reads in between. Its outcome is the id that comes next, or the end of the queue. -/
inductive Round (plan : ReviewPlan) (r : Reviewer (Wire RunningService)) (id : String)
    (r' : Reviewer (Wire RunningService)) (outcome : Except ReviewStop String) : Prop
  | intro (s : Session) (mounted shown saved : Reviewer (Wire RunningService))
      (edits : List Session.Edit) (path : Option String)
      (mounts : (mount plan id).run.run r = (.ok s, mounted))
      (reads : mounted.desk.Browsed shown.desk)
      (keeps : shown.executor = mounted.executor)
      (decides : (s.edited edits).form.Decides s.mode)
      (submits : (submit (s.edited edits)).run.run shown = (.ok (.ok path), saved))
      (follows : (followed plan.preferences.pathTemplate path).run.run saved = (outcome, r'))

/-- What comes after a submission of the queue. -/
def after : List Int → Except ReviewStop String
  | [] => .error .finished
  | next :: _ => .ok (Text.ofInt next)

theorem after_eq_finished {rest : List Int} (h : after rest = .error .finished) : rest = [] := by
  cases rest with
  | nil => rfl
  | cons next rest => cases h

/-- A review of names with the default template. -/
structure Plain (plan : ReviewPlan) : Prop where
  project : IsName plan.request.project
  batch : IsName plan.request.batch
  template : plan.preferences.pathTemplate = Route.defaultTemplate

variable {plan : ReviewPlan} {r r' : Reviewer (Wire RunningService)} {ids : List Int}

/-- The session of a submission of the queue, as it starts: with the stored submission, and with the
queue out of the cache for siblings. -/
theorem start_of_mount (hplan : Plain plan)
    (hlists : r.desk.Lists plan.request.project plan.request.batch ids) {id : Int}
    (hid : id ∈ ids) {s : Session}
    (hmount : (mount plan (Text.ofInt id)).run.run r = (.ok s, r')) :
    ∃ old items, r.desk.store.get id = .ok old ∧ Siblings.HasIds items ids ∧
      s = Session.start (params plan (Text.ofInt id))
        (.ofNames plan.request.project plan.request.batch (Text.ofInt id)) old.compacted items
        none := by
  obtain ⟨hsession, -⟩ := mount_eq_ok hmount
  have hsettle : r.desk.Browsed r.desk.settle := .settle .refl
  have hsettled := hlists.browsed hplan.project hplan.batch hsettle
  obtain ⟨hpos, hfits⟩ := hlists.pos id hid
  obtain ⟨old, hget⟩ := Session.get_of_mount (p := params plan (Text.ofInt id)) hsession
    hsettled.client hplan.project hplan.batch rfl hpos hfits
  obtain ⟨-, hs⟩ := Session.mount_served (p := params plan (Text.ofInt id)) hsession
    hsettled.client hsettled.sound hplan.project hplan.batch rfl hget
  obtain ⟨items, hresolve, hitems⟩ := (hsettled.browsed hplan.project hplan.batch
    ((Desk.Browsed.refl.prefetch (Endpoint.attachmentsPath (Text.ofInt id))).get
      (Endpoint.detailPath (Text.ofInt id)))).resolve (List.ne_nil_of_mem hid)
  let started (resolved : Desk (Wire RunningService) × List (Option Summary) ×
      Option RequestError) : Session :=
    .start (params plan (Text.ofInt id))
      (.ofNames plan.request.project plan.request.batch (Text.ofInt id)) old.compacted resolved.2.1
      resolved.2.2
  rw [hsettle.same.store] at hget
  exact ⟨old, items, hget, hitems, hs.trans (congrArg started hresolve)⟩

/-- The session of a submission of the queue: it shows the submission, and its neighbour is the
next one of the queue. -/
theorem session_of_mount (hplan : Plain plan)
    (hlists : r.desk.Lists plan.request.project plan.request.batch ids) {before after : List Int}
    {id : Int} (hids : ids = before ++ id :: after) {s : Session}
    (hmount : (mount plan (Text.ofInt id)).run.run r = (.ok s, r')) :
    s.submission.id = id ∧ s.coordinator.detailPath = Endpoint.detailPath (Text.ofInt id) ∧
      ∃ previous, s.navigator =
        { template := Route.defaultTemplate
          params :=
            [(Route.projectId, plan.request.project), (Route.batchId, plan.request.batch)]
          next := after.head?
          previous } := by
  obtain ⟨old, items, hget, hitems, rfl⟩ :=
    start_of_mount hplan hlists (by simp [hids] : id ∈ ids) hmount
  refine ⟨Session.id_of_get (s := old) hget, rfl, (Navigator.around id none items).1, ?_⟩
  have hpos := hlists.pos
  have hnodup := hlists.nodup
  rw [hids] at hitems hpos hnodup
  have hbefore : id ∉ before := by
    intro hmem
    exact (List.nodup_append.mp hnodup).2.2 id hmem id List.mem_cons_self rfl
  have htemplate : (if (params plan (Text.ofInt id)).pathTemplate = "" then Route.defaultTemplate
      else (params plan (Text.ofInt id)).pathTemplate) = Route.defaultTemplate := by
    show (if plan.preferences.pathTemplate = "" then _ else plan.preferences.pathTemplate) = _
    rw [hplan.template, ite_self]
  rw [Session.navigator_start, htemplate]
  exact Navigator.next_locate hitems hbefore
    (fun next hmem => (hpos next (by simp [hmem])).1.ne') (hpos id (by simp)).2 _ _

/-- A save keeps the list of a desk. -/
theorem lists_of_saved {d : Desk (Wire RunningService)} {project batch : String}
    (hlists : d.Lists project batch ids) {s result : Session} {e : Executor} {id : Int}
    {old : Submission} {now : Moment}
    (hpath : s.coordinator.detailPath = Endpoint.detailPath (Text.ofInt id))
    (hok : (s.submit e d).result = .ok ())
    (hsaved : s.Saved d.store (s.submit e d).desk.store result old now) :
    (s.submit e d).desk.Lists project batch ids := by
  obtain ⟨-, remote, data, hwritten⟩ := Session.submit_eq_ok hok
  have hremote : (s.submit e d).desk.remote =
      (Remote.send d.remote "PUT" (Endpoint.detailPath (Text.ofInt id))
        (some (.ofList (s.form.verdict s.mode s.submission).json))).1 := by
    rw [hwritten.desk, Desk.remote_refresh, ← hpath]
    exact (congrArg Prod.fst hwritten.sent).symm
  have hput : "PUT" ∈ Server.Resource.methods
      (.submission (Text.toBytes (Text.ofInt id).toList)) := by
    simp [Server.Resource.methods]
  obtain ⟨-, hclock, -⟩ := Client.send_of_reaches (hlists.client.reaches_detail (isName_ofInt id))
    (.inr rfl) hput d.remote.peer (some (.ofList (s.form.verdict s.mode s.submission).json))
  have helapsed := (Form.verdict_portable (hlists.sound.portable hsaved.found) s.form
    s.mode).timeElapsed
  have hstore := hsaved.written
  refine
    { client := ?_
      clock := ?_
      sound := ?_
      isOpen := ?_
      near := ?_
      listed := ?_
      cached := ?_ }
  · rw [hremote]
    exact hlists.client
  · have htime := congrArg Clock.time hclock
    rw [hremote]
    exact hlists.clock.of_time htime
  · rw [hstore]
    exact hlists.sound.reviewed now _ helapsed
  · rw [hstore]
    exact hlists.isOpen
  · rw [hstore]
    exact hlists.near.reviewed _ _ _
  · rw [hstore, Store.ids_reviewed]
    exact hlists.listed
  · rw [hwritten.desk]
    exact hlists.cached.of_entry ((Desk.alike_refresh _ _).entries _)

/-- The status that final verdicts lead to is not open. -/
theorem not_isOpen_of_landed {s result : Session} {before after : Store} {old new : Submission}
    (h : s.Landed before after result old new) (hdecides : s.form.Decides s.mode) :
    new.status.isOpen = false := by
  have happroved : Status.approved.isOpen = false := by decide
  have hrejected : Status.rejected.isOpen = false := by decide
  cases hmode : s.mode with
  | single =>
      rw [(h.whole hmode).1]
      rw [hmode] at hdecides
      rcases hdecides with hstatus | hstatus <;> rw [hstatus] <;> assumption
  | parts =>
      rw [h.derived hmode]
      split <;> assumption

/-- A save that succeeded is followed to the next submission of the queue. -/
theorem followed_of_saved (hplan : Plain plan) {s : Session} {rest : List Int}
    {previous : Option Int}
    (hnavigator : s.navigator =
      { template := Route.defaultTemplate
        params := [(Route.projectId, plan.request.project), (Route.batchId, plan.request.batch)]
        next := rest.head?
        previous })
    {e : Executor} {d : Desk (Wire RunningService)} (hok : (s.submit e d).result = .ok ())
    {outcome : Except ReviewStop String}
    (h : (followed plan.preferences.pathTemplate (destination? (s.submit e d).calls)).run.run r =
      (outcome, r')) :
    outcome = after rest ∧ r'.desk = r.desk ∧ r'.executor = r.executor := by
  obtain ⟨-, remote, data, hwritten⟩ := Session.submit_eq_ok hok
  rw [destination?_of_written hwritten, hnavigator, hplan.template] at h
  cases rest with
  | nil =>
      obtain ⟨rfl, rfl⟩ := Prod.mk.inj ((followed_none Route.defaultTemplate r).symm.trans h)
      exact ⟨rfl, rfl, rfl⟩
  | cons next rest =>
      obtain ⟨path, hadvance, hpath, hread⟩ :=
        Navigator.advance?_default hplan.project hplan.batch previous next
      rw [List.head?_cons, hadvance, followed_some hpath hread] at h
      obtain ⟨rfl, rfl⟩ := Prod.mk.inj h
      exact ⟨rfl, rfl, rfl⟩

/-- What a round does at a submission of the queue: it gives it a final status, leaves all others
alone, and goes on to the next one. -/
theorem Round.step (hplan : Plain plan)
    (hlists : r.desk.Lists plan.request.project plan.request.batch ids) {before rest : List Int}
    {id : Int} (hids : ids = before ++ id :: rest) {outcome : Except ReviewStop String}
    (h : Round plan r (Text.ofInt id) r' outcome) :
    outcome = after rest ∧ r'.desk.Lists plan.request.project plan.request.batch ids ∧
      (∀ other, other ≠ id → r'.desk.store.row? other = r.desk.store.row? other ∧
        r'.desk.store.get other = r.desk.store.get other) ∧
      ∃ new, r'.desk.store.get id = .ok new ∧ new.status.isOpen = false := by
  obtain ⟨s, mounted, shown, saved, edits, path, hmount, hbrowsed, -, hdecides, hsubmit,
    hfollowed⟩ := h
  obtain ⟨hid, hdetail, previous, hnavigator⟩ := session_of_mount hplan hlists hids hmount
  obtain ⟨hsession, -⟩ := mount_eq_ok hmount
  obtain ⟨hok, rfl, hdesk, -⟩ := submit_eq_ok hsubmit
  -- the edits have changed nothing but the form
  obtain ⟨form, hedited, -⟩ := Session.edited_frame s edits
  have hdecides' : (s.edited edits).form.Decides (s.edited edits).mode := by
    rw [hedited] at hdecides ⊢
    exact hdecides
  have hnavigator' : (s.edited edits).navigator = s.navigator := by rw [hedited]
  have hdetail' : (s.edited edits).coordinator = s.coordinator := by rw [hedited]
  have hid' : (s.edited edits).submission = s.submission := by rw [hedited]
  -- and the reads in between nothing of the service
  have hsettle : r.desk.Browsed r.desk.settle := .settle .refl
  have hread : r.desk.settle.Browsed shown.desk :=
    (Session.browsed_of_mount hsession).trans hbrowsed
  have hsettled := hlists.browsed hplan.project hplan.batch hsettle
  have hshown := hsettled.browsed hplan.project hplan.batch hread
  have hstore : shown.desk.store = r.desk.settle.store := hread.same.store
  obtain ⟨old, now, hsaved⟩ := Session.saved_of_submit hsession hsettled.sound edits
    hread.same.client hstore hshown.clock hok
  have hlanded := hsaved.landed hsettled.sound
  obtain ⟨houtcome, hafter, -⟩ :=
    followed_of_saved hplan (hnavigator'.trans hnavigator) hok hfollowed
  have hfinal : r'.desk = ((s.edited edits).submit shown.executor shown.desk).desk :=
    hafter.trans hdesk
  rw [hfinal]
  refine ⟨houtcome, ?_, ?_, ?_⟩
  · have hlast := hsaved
    rw [← hstore] at hlast
    exact lists_of_saved hshown (hdetail' ▸ hdetail) hok hlast
  · intro other hne
    have hsettledStore : r.desk.settle.store = r.desk.store := hsettle.same.store
    have hother : other ≠ (s.edited edits).submission.id := by rwa [hid', hid]
    rw [← hsettledStore]
    refine ⟨?_, hlanded.others other hother⟩
    rw [hsaved.written]
    exact Store.row?_reviewed_of_ne _ _ _ _ hother
  · have hstored := hlanded.stored
    rw [hid', hid] at hstored
    exact ⟨_, hstored, not_isOpen_of_landed hlanded hdecides'⟩

/-! ## Submissions at which there is a round -/

/-- A submission that is there, and that can be loaded when it can be read, on both sides. -/
def Mountable (plan : ReviewPlan) (r : Reviewer (Wire RunningService)) (id : Int) : Prop :=
  (r.desk.store.row? id).isSome ∧
    ∀ s t, r.desk.store.get id = .ok s → s.json? = some t → s.RawsWithin (Json.maxHeight - 1) →
      ∃ session mounted, (mount plan (Text.ofInt id)).run.run r = (.ok session, mounted)

theorem mountable_of_lists (hplan : Plain plan)
    (hlists : r.desk.Lists plan.request.project plan.request.batch ids) {id : Int}
    (hid : id ∈ ids) : Mountable plan r id := by
  obtain ⟨row, hrow⟩ := hlists.exists_row hid
  refine ⟨by rw [hrow]; rfl, fun s t hget ht hraws => ?_⟩
  have hsettle : r.desk.Browsed r.desk.settle := .settle .refl
  have hsettled := hlists.browsed hplan.project hplan.batch hsettle
  have hget' : r.desk.settle.store.get id = .ok s := by rw [hsettle.same.store, hget]
  obtain ⟨d', session, hmount⟩ := Session.exists_mount_served
    (p := params plan (Text.ofInt id)) hsettled.client hsettled.sound hplan.project hplan.batch
    rfl hget' ht hraws
  exact ⟨session, { r with desk := d' }, by rw [mount_run, hmount]; rfl⟩

/-- A submission that can be shown and read, and that no judgement finds a wrong time with. -/
def Reviewable (store : Store) (id : Int) : Prop :=
  ∃ s t, store.get id = .ok s ∧ s.json? = some t ∧ s.RawsWithin (Json.maxHeight - 1) ∧
    0 ≤ s.timeElapsed

/-- At a submission of the queue every form is saved that the gate lets through and with which
nothing is wrong, with any reads in between. -/
theorem result_of_form (hplan : Plain plan)
    (hlists : r.desk.Lists plan.request.project plan.request.batch ids) {id : Int}
    (hid : id ∈ ids) {old : Submission} (hget : r.desk.store.get id = .ok old) {s : Session}
    (hmount : (mount plan (Text.ofInt id)).run.run r = (.ok s, r'))
    {shown : Reviewer (Wire RunningService)} (hreads : r'.desk.Browsed shown.desk) {form : Form}
    (hgate : form.canSubmit (Mode.of old)
      (isReadOnly plan.preferences.readOnlyStatuses old.compacted) shown.executor.busy = true)
    (hjudged : Problem.find old (form.verdict (Mode.of old) old) = []) :
    (({ s with form } : Session).submit shown.executor shown.desk).result = .ok () := by
  obtain ⟨hsession, -⟩ := mount_eq_ok hmount
  obtain ⟨stored, items, hstored, -, hs⟩ := start_of_mount hplan hlists hid hmount
  obtain rfl := Except.ok.inj (hget.symm.trans hstored)
  have hsettle : r.desk.Browsed r.desk.settle := .settle .refl
  have hread : r.desk.Browsed shown.desk :=
    (hsettle.trans (Session.browsed_of_mount hsession)).trans hreads
  have hshown := hlists.browsed hplan.project hplan.batch hread
  subst hs
  refine Session.submit_served hshown.client hshown.clock hshown.sound ?_ rfl rfl rfl hgate hjudged
  rw [hread.same.store]
  exact hget

/-- The approval of a submission that was loaded decides it, and is saved. -/
theorem submit_approval (hplan : Plain plan) (hreadOnly : plan.preferences.readOnlyStatuses = [])
    (hlists : r.desk.Lists plan.request.project plan.request.batch ids) {id : Int}
    (hid : id ∈ ids) {old : Submission} (hget : r.desk.store.get id = .ok old)
    (htime : 0 ≤ old.timeElapsed) (hidle : r.executor.busy = false) {s : Session}
    (hmount : (mount plan (Text.ofInt id)).run.run r = (.ok s, r')) :
    (s.edited s.approval).form.Decides s.mode ∧
      ((s.edited s.approval).submit r'.executor r'.desk).result = .ok () := by
  obtain ⟨-, hexecutor⟩ := mount_eq_ok hmount
  obtain ⟨stored, items, hstored, -, hs⟩ := start_of_mount hplan hlists hid hmount
  obtain rfl := Except.ok.inj (hget.symm.trans hstored)
  have hmode : s.mode = Mode.of old := by rw [hs]; rfl
  obtain ⟨hdecides, hgate, hjudged⟩ := Session.approval_ready hmode (by rw [hs]; rfl) htime
  refine ⟨hdecides, ?_⟩
  -- the approval changes nothing but the form
  obtain ⟨form, hedited, -⟩ := Session.edited_frame s s.approval
  rw [hedited] at hgate hjudged ⊢
  rw [hmode] at hgate hjudged
  refine result_of_form hplan hlists hid hget hmount .refl ?_ hjudged
  have hwritable : isReadOnly plan.preferences.readOnlyStatuses old.compacted = false := by
    rw [hreadOnly]
    rfl
  rw [hwritable, hexecutor, hidle]
  exact hgate

/-- At a submission that can be reviewed there is a round. -/
theorem exists_round (hplan : Plain plan) (hreadOnly : plan.preferences.readOnlyStatuses = [])
    (hlists : r.desk.Lists plan.request.project plan.request.batch ids) {before rest : List Int}
    {id : Int} (hids : ids = before ++ id :: rest) (hidle : r.executor.busy = false)
    (hreviewable : Reviewable r.desk.store id) :
    ∃ r', Round plan r (Text.ofInt id) r' (after rest) ∧ r'.executor.busy = false := by
  obtain ⟨old, t, hget, hjson, hraws, htime⟩ := hreviewable
  have hid : id ∈ ids := by simp [hids]
  obtain ⟨-, hmounts⟩ := mountable_of_lists hplan hlists hid
  obtain ⟨s, mounted, hmount⟩ := hmounts old t hget hjson hraws
  obtain ⟨-, -, previous, hnavigator⟩ := session_of_mount hplan hlists hids hmount
  obtain ⟨hdecides, hok⟩ := submit_approval hplan hreadOnly hlists hid hget htime hidle hmount
  have hnavigator' : (s.edited s.approval).navigator = s.navigator := by
    obtain ⟨form, hedited, -⟩ := Session.edited_frame s s.approval
    rw [hedited]
  obtain ⟨-, remote, data, hwritten⟩ := Session.submit_eq_ok hok
  have hsubmit : (submit (s.edited s.approval)).run.run mounted =
      (.ok (.ok (destination?
        ((s.edited s.approval).submit mounted.executor mounted.desk).calls)),
        ((submit (s.edited s.approval)).run.run mounted).2) := by
    rw [submit_run, hok]
    rfl
  rcases hfollowed : (followed plan.preferences.pathTemplate (destination?
      ((s.edited s.approval).submit mounted.executor mounted.desk).calls)).run.run
        ((submit (s.edited s.approval)).run.run mounted).2 with ⟨outcome, r'⟩
  obtain ⟨rfl, -, hkept⟩ := followed_of_saved hplan (hnavigator'.trans hnavigator) hok hfollowed
  refine ⟨r', .intro s mounted mounted _ s.approval _ hmount .refl rfl hdecides hsubmit
    hfollowed, ?_⟩
  rw [hkept]
  exact hwritten.idle

end Reviewer
end ReviewQueue
