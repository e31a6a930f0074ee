import ReviewQueue.Proofs.Review.Effects
import ReviewQueue.Proofs.Review.Given
import ReviewQueue.Proofs.Review.Recorded
import ReviewQueue.Proofs.Review.Verdict

/-!
# Given verdicts are saved whole or not at all

Flags are put into the form one after the other, so that a bad one leaves the form half-changed.
Such a form never leaves the review: before the one write there are only reads, and the write is
made with a form that has every flag, or not at all.

* `Reviewer.browsed_of_refused`, `Reviewer.writes_of_accepted` — what is done with a verdict;
* `Desk.Unwritten`, `Desk.Unwritten.store` — what stays as it is when nothing is written;
* `verdict_flags_all_or_nothing` — the whole review.
-/

namespace ReviewQueue

open RemoteCall

/-- A verdict that is saved: it fits the session, and the form with it passes the gate. -/
def ReviewRequest.Accepted (request : ReviewRequest) (s : Session) : Prop :=
  request.Fits s ∧ (request.form s).canSubmit s.mode s.readOnly false = true

/-- A desk at a service through which nothing was written: what no fetch changes is as it was. -/
structure Desk.Unwritten [Remote ω] (d : Desk (Recorded ω)) (service : ω) : Prop where
  writes : RemoteCall.writes d.calls = []
  view : ∀ {α : Type} (view : ω → α), (∀ w path, view (Remote.fetch w path).1 = view w) →
    view d.remote.service = view service

theorem Desk.Unwritten.browsed [Remote ω] {d d' : Desk (Recorded ω)} {service : ω}
    (h : d.Unwritten service) (hbrowsed : d.Browsed d') : d'.Unwritten service where
  writes := hbrowsed.writes.trans h.writes
  view view hview := (hbrowsed.view hview).trans (h.view view hview)

/-- Behind a review service through which nothing was written, the store is as it was. -/
theorem Desk.Unwritten.store {d : Desk (Recorded (Wire RunningService))}
    {service : Wire RunningService} (h : d.Unwritten service) :
    d.remote.service.peer.service.store = service.peer.service.store :=
  h.view (fun w => w.peer.service.store) fun w path =>
    (Desk.send_get_same w.client w.peer path).store

/-- A submit of a session that is not shut makes one write. -/
theorem Session.calls_submit [Remote ω] {s : Session} {e : Executor} {d : Desk (Recorded ω)}
    (h : ¬ s.Shut e) :
    ∃ outcome, (s.submit e d).desk.calls =
      .sent "PUT" s.coordinator.detailPath
        (some (.ofList (s.form.verdict s.mode s.submission).json)) outcome :: d.calls := by
  rcases hput : s.put d with ⟨remote, cause | data⟩
  · refine ⟨.error cause, ?_⟩
    rw [(submit_of_failed h hput).desk]
    obtain ⟨rfl, houtcome⟩ := Prod.mk.inj hput
    rw [← houtcome]
  · refine ⟨.ok data, ?_⟩
    rw [(submit_of_written h hput).1.desk, Desk.calls, Desk.remote_refresh]
    obtain ⟨rfl, houtcome⟩ := Prod.mk.inj hput
    rw [← houtcome]

namespace Reviewer

variable [Remote ω] {plan : ReviewPlan} {r : Reviewer (Recorded ω)} {s : Session}

/-! ## What is done with a verdict -/

/-- A verdict that fits is put into the form, and the form is saved. -/
theorem reviewGiven_of_fits (hdraft : plan.drafter = none) (hfits : plan.request.Fits s) :
    reviewGiven (ω := ω) plan s = (do
      match ← submit { s with form := plan.request.form s } with
      | .ok path => followed plan.preferences.pathTemplate path
      | .error e => fail (submitError s.mode e)) := by
  have happly : applyVerdict plan.request s >>= draftMissing plan.drafter =
      .ok { s with form := plan.request.form s } := by
    rw [(applyVerdict_eq_ok_iff _ _ _).mpr ⟨hfits, rfl⟩, hdraft]
    rfl
  unfold reviewGiven
  split
  · rename_i e he
    cases happly.symm.trans he
  · rename_i given hgives
    obtain rfl := Except.ok.inj (happly.symm.trans hgives)
    rfl

/-- What follows the save of a verdict only reads. -/
theorem reads_afterwards (mode : Mode) (template : String)
    (result : Except SubmitError (Option String)) :
    Reads (ω := ω) (match result with
      | .ok path => followed template path
      | .error e => fail (submitError mode e)) := by
  split
  · exact reads_followed _ _
  · exact (reads_iff _).mpr fun _ _ => .fail _

/-- With a verdict that is not accepted, the review only reads. -/
theorem browsed_of_refused (hdraft : plan.drafter = none) (h : ¬ plan.request.Accepted s) :
    r.desk.Browsed ((reviewGiven plan s).run.run r).2.desk := by
  by_cases hfits : plan.request.Fits s
  · -- the flags fit, but the gate stays shut to what they make of the form
    have hshut : ({ s with form := plan.request.form s } : Session).Shut r.executor := by
      right
      simpa using fun hgate => h ⟨hfits, hgate⟩
    rw [reviewGiven_of_fits hdraft hfits, run_bind, submit_run]
    refine Desk.Browsed.trans ?_ (reads_afterwards s.mode plan.preferences.pathTemplate _ _).1
    show r.desk.Browsed (Session.submit _ r.executor r.desk).desk
    rw [(Session.submit_of_shut hshut).desk]
    exact .refl
  · -- a flag is bad, so that nothing comes of the form it was put into
    have hfail : ∃ e, applyVerdict plan.request s = .error e := by
      cases happly : applyVerdict plan.request s with
      | error e => exact ⟨e, rfl⟩
      | ok given => exact absurd ((applyVerdict_eq_ok_iff _ _ _).mp happly).1 hfits
    obtain ⟨e, he⟩ := hfail
    unfold reviewGiven
    rw [he]
    exact .refl

/-- An accepted verdict is saved by one write. -/
theorem writes_of_accepted (hdraft : plan.drafter = none) (hidle : r.executor.busy = false)
    (h : plan.request.Accepted s) :
    ∃ outcome, writes ((reviewGiven plan s).run.run r).2.desk.calls =
      .sent "PUT" s.coordinator.detailPath
        (some (.ofList ((plan.request.form s).verdict s.mode s.submission).json)) outcome ::
          writes r.desk.calls := by
  have hopen : ¬ ({ s with form := plan.request.form s } : Session).Shut r.executor := by
    rintro (hbusy | hgate)
    · cases hbusy.symm.trans hidle
    · cases hgate.symm.trans h.2
  obtain ⟨outcome, hcalls⟩ := Session.calls_submit (d := r.desk) hopen
  refine ⟨outcome, ?_⟩
  rw [reviewGiven_of_fits hdraft h.1, run_bind, submit_run]
  refine (reads_afterwards s.mode plan.preferences.pathTemplate _ _).1.writes.trans ?_
  show writes (Session.submit _ r.executor r.desk).desk.calls = _
  rw [hcalls, writes_sent]

/-! ## From the load to the end -/

section Rest

variable {terminal : Terminal} {service : ω} {id : String} {started mounted : Reviewer (Recorded ω)}

/-- Up to the load of a submission nothing is written, and no write is under way. -/
theorem unwritten_of_mount
    (hstart : (start plan).run.run (.fresh terminal service) = (.ok id, started))
    (hmount : (mount plan id).run.run started = (.ok s, mounted)) :
    mounted.desk.Unwritten service ∧ mounted.executor.busy = false := by
  obtain ⟨hsession, hexecutor⟩ := mount_eq_ok hmount
  obtain ⟨hdesk, hidle⟩ := reads_start plan (.fresh terminal service)
  rw [hstart] at hdesk hidle
  have hfresh : (Reviewer.fresh terminal service).desk.Unwritten service := ⟨rfl, fun _ _ => rfl⟩
  refine ⟨hfresh.browsed (hdesk.settle.trans (Session.browsed_of_mount hsession)), ?_⟩
  rw [hexecutor, hidle]
  rfl

/-- With a verdict that is not accepted, the review only reads to its end. -/
theorem browsed_rest_of_refused (hdraft : plan.drafter = none) (h : ¬ plan.request.Accepted s) :
    r.desk.Browsed ((present s >>= fun _ => reviewGiven plan s).run.run r).2.desk := by
  have hpresent := (reads_present s r).1
  rw [run_bind]
  rcases hrun : (present s).run.run r with ⟨_ | _, r'⟩
  · rw [hrun] at hpresent
    exact hpresent
  · rw [hrun] at hpresent
    exact hpresent.trans (browsed_of_refused hdraft h)

/-- An accepted verdict is saved by one write when the session can be shown. -/
theorem writes_rest_of_accepted (hdraft : plan.drafter = none) (hidle : r.executor.busy = false)
    (h : plan.request.Accepted s) (hshown : ¬ s.Lacks r.desk.settle.cache) :
    ∃ outcome, writes ((present s >>= fun _ => reviewGiven plan s).run.run r).2.desk.calls =
      .sent "PUT" s.coordinator.detailPath
        (some (.ofList ((plan.request.form s).verdict s.mode s.submission).json)) outcome ::
          writes r.desk.calls := by
  obtain ⟨shown, hrun⟩ := exists_present hshown
  obtain ⟨hdesk, hexecutor⟩ := reads_present s r
  rw [hrun] at hdesk hexecutor
  obtain ⟨outcome, hwrites⟩ := writes_of_accepted hdraft (hexecutor ▸ hidle) h
  rw [hdesk.writes] at hwrites
  refine ⟨outcome, ?_⟩
  rw [run_bind, hrun]
  exact hwrites

/-- A session that cannot be shown is not saved. -/
theorem rest_of_lacks (h : s.Lacks r.desk.settle.cache) :
    (present s >>= fun _ => reviewGiven plan s).run.run r =
      (.error (.failed .crash), ((present s).run.run r).2) := by
  have hcrash := present_crashes h
  rw [run_bind]
  rcases hrun : (present s).run.run r with ⟨_ | _, r'⟩
  · rw [hrun] at hcrash
    obtain rfl := Except.error.inj hcrash
    rfl
  · rw [hrun] at hcrash
    cases hcrash

end Rest

end Reviewer

open Reviewer

/-- **A given verdict is saved whole or not at all.** Let a review have a verdict that is given
beforehand, and let it load a submission. Unless the verdict fits the session and passes the gate,
nothing is written and nothing is changed. When it does, and the session can be shown, one write is
made, with the update that has the verdict of the last flag for each part. The session can be shown
unless an item is missing in one of its lists; then nothing is written, and the review crashes. A
text is a flag when it starts with the number of a part, up to its first `=`, and goes on with a
known verdict, up to the next `:`; the feedback is what follows. -/
theorem verdict_flags_all_or_nothing [Remote ω] {plan : ReviewPlan} {terminal : Terminal}
    {service : ω} {id : String} {started mounted : Reviewer (Recorded ω)} {s : Session}
    (hgiven : plan.request.verdictGiven = true) (hdraft : plan.drafter = none)
    (hstart : (start plan).run.run (.fresh terminal service) = (.ok id, started))
    (hmount : (mount plan id).run.run started = (.ok s, mounted)) :
    let result := Reviewer.run plan (.fresh terminal service)
    let desk := result.1.desk.settle
    (¬ plan.request.Accepted s → desk.Unwritten service) ∧
    (plan.request.Accepted s → ¬ s.Lacks mounted.desk.settle.cache →
      ∃ path outcome, Endpoint.detail id = .ok path ∧
        writes desk.calls =
          [.sent "PUT" path (some (.ofList (plan.request.verdict s).json)) outcome]) ∧
    (plan.request.Accepted s → s.Lacks mounted.desk.settle.cache →
      desk.Unwritten service ∧ result.2 = some .crash) ∧
    ∀ raw f, PartFlag.read raw = .ok f ↔
      ∃ number label feedback n, PartFlag.Layout raw.toList number label feedback ∧
        Text.IsPositiveNumeral (Text.trim number) n ∧
        (PartFlag.statusOf label).isKnown = true ∧
        f = ⟨n - 1, PartFlag.statusOf label, .ofList (Text.trim feedback)⟩ := by
  intro result desk
  have hresult := run_given hgiven hstart hmount
  obtain ⟨hloaded, hidle⟩ := unwritten_of_mount hstart hmount
  obtain ⟨hsession, -⟩ := mount_eq_ok hmount
  -- refused, saved or lost to a gap, in the order of the statement
  refine ⟨fun hrefused => ?_, fun haccepted hshown => ?_, fun _ hlacks => ?_,
    PartFlag.read_eq_ok_iff⟩
  · show ((Reviewer.run plan _).1.desk.settle).Unwritten service
    rw [hresult]
    exact hloaded.browsed (browsed_rest_of_refused hdraft hrefused).settle
  · obtain ⟨outcome, hwrites⟩ := writes_rest_of_accepted hdraft hidle haccepted hshown
    have hdetail := (Session.follows_of_mount hsession).detail
    obtain ⟨_, _, _, -, -, -, -, hs⟩ := Session.mount_eq_ok hsession
    refine ⟨_, outcome, hdetail, ?_⟩
    show writes (Reviewer.run plan _).1.desk.settle.calls = _
    rw [hresult, (Desk.Browsed.refl.settle).writes, hwrites, hloaded.writes,
      ReviewRequest.verdict_form _ (by rw [hs]; rfl) (by rw [hs]; rfl)]
  · rw [rest_of_lacks hlacks] at hresult
    refine ⟨?_, congrArg Prod.snd hresult⟩
    show ((Reviewer.run plan _).1.desk.settle).Unwritten service
    rw [hresult]
    exact hloaded.browsed (reads_present s mounted).1.settle

/-- A submission with a part, in a batch with these entries. -/
def Pages.onePart (entries : String) : Pages where
  pages :=
    [("/api/v1/projects/p/batches/b/submissions", "\x7b\"results\":" ++ entries ++ "\x7d"),
     ("/api/v1/submissions/1", "\x7b\"id\":1,\"parts\":[\x7b\x7d]\x7d"),
     ("/api/v1/submissions/1/attachments", "[]")]

/-- A batch with this submission. -/
def Pages.whole : Pages := .onePart "[\x7b\"id\":1\x7d]"

/-- The same batch with a gap in its list. -/
def Pages.gapped : Pages := .onePart "[null,\x7b\"id\":1\x7d]"

/-- A review with two flags for the part. -/
def ReviewPlan.flagged : ReviewPlan where
  request :=
    { project := "p", batch := "b", id := "1", parts := ["1=rejected:new", "1= Approved :a=b:c "] }
  preferences := .ofSettings "" "" [] []

/-- The session for this submission. -/
def Session.onePart (entries : List (Option Summary)) : Session :=
  .start (Reviewer.params .flagged "1")
    ⟨"/api/v1/submissions/1", "/api/v1/projects/p/batches/b/submissions",
      "/api/v1/submissions/1/attachments"⟩
    { id := 1, parts := some [{}] } entries none

/-- The session is loaded from this service. -/
theorem Reviewer.exists_mount_onePart :
    ∃ mounted, (mount .flagged "1").run.run (.fresh {} Pages.whole) =
      (.ok (.onePart [some { id := 1 }]), mounted) ∧
      ¬ (Session.onePart [some { id := 1 }]).Lacks mounted.desk.settle.cache := by
  have hloaded : ((mount .flagged "1").run.run (.fresh {} Pages.whole)).1 =
        .ok (.onePart [some { id := 1 }]) ∧
      ¬ (Session.onePart [some { id := 1 }]).Lacks
        ((mount .flagged "1").run.run (.fresh {} Pages.whole)).2.desk.settle.cache := by
    decide +kernel
  generalize (mount .flagged "1").run.run (.fresh {} Pages.whole) = x at hloaded
  exact ⟨x.2, Prod.ext hloaded.1 rfl, hloaded.2⟩

theorem verdict_flags_on_onePart :
    ∃ outcome,
      writes (Reviewer.run .flagged (.fresh {} Pages.whole)).1.desk.settle.calls =
        [.sent "PUT" "/api/v1/submissions/1" (some (.ofList (Verdict.json
          { parts := some [⟨1, 0, .approved, "a=b:c"⟩] }))) outcome] := by
  obtain ⟨mounted, hmount, hlacks⟩ := Reviewer.exists_mount_onePart
  have hstart : (start .flagged).run.run (.fresh {} Pages.whole) =
      (.ok "1", .fresh {} Pages.whole) := by
    unfold start
    rw [if_pos (by decide +kernel)]
    rfl
  have haccepted : ReviewPlan.flagged.request.Accepted (.onePart [some { id := 1 }]) :=
    ⟨.parts (by decide +kernel) (by decide +kernel) rfl (by decide +kernel), by decide +kernel⟩
  obtain ⟨-, hsaved, -⟩ := verdict_flags_all_or_nothing (by decide +kernel) rfl hstart hmount
  obtain ⟨path, outcome, hpath, hwrites⟩ := hsaved haccepted hlacks
  have hdetail : Endpoint.detail "1" = .ok "/api/v1/submissions/1" := by decide +kernel
  obtain rfl := Except.ok.inj (hpath.symm.trans hdetail)
  have hverdict : ReviewPlan.flagged.request.verdict (.onePart [some { id := 1 }]) =
      { parts := some [⟨1, 0, .approved, "a=b:c"⟩] } := by
    decide +kernel
  rw [hverdict] at hwrites
  exact ⟨outcome, hwrites⟩

/-- The same verdict is not saved when an entry is missing before the submission in its list. -/
theorem verdict_flags_lost_behind_gap :
    ((mount .flagged "1").run.run (.fresh {} Pages.gapped)).1 =
        .ok (.onePart [none, some { id := 1 }]) ∧
      ReviewPlan.flagged.request.Accepted (.onePart [none, some { id := 1 }]) ∧
      writes (Reviewer.run .flagged
        (.fresh {} Pages.gapped)).1.desk.settle.calls = [] ∧
      (Reviewer.run .flagged (.fresh {} Pages.gapped)).2 = some .crash := by
  have haccepted : ReviewPlan.flagged.request.Accepted (.onePart [none, some { id := 1 }]) :=
    ⟨.parts (by decide +kernel) (by decide +kernel) rfl (by decide +kernel), by decide +kernel⟩
  have hruns : ((mount .flagged "1").run.run (.fresh {} Pages.gapped)).1 =
        .ok (.onePart [none, some { id := 1 }]) ∧
      writes (Reviewer.run .flagged (.fresh {} Pages.gapped)).1.desk.settle.calls = [] ∧
      (Reviewer.run .flagged (.fresh {} Pages.gapped)).2 = some .crash := by
    decide +kernel
  exact ⟨hruns.1, haccepted, hruns.2⟩

end ReviewQueue
