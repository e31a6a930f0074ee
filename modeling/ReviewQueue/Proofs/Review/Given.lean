import ReviewQueue.Proofs.Review.Shown
import ReviewQueue.Proofs.Review.Steps
import ReviewQueue.Proofs.Review.Walk

/-!
# A review with a verdict that is given beforehand

A review whose verdict is given on the command line loads one submission, shows it, puts the verdict
into its form and saves the form once. All other steps only read: from the list of the batch before
the submission is loaded, from the background fetches before its attachments are shown, and from
nothing at all after the save.

* `Reviewer.Reads`, `Reviewer.reads_iff` — a step that only reads, and how this is shown;
* `Reviewer.run_given` — such a review is one submission long;
* `Reviewer.GivenSave` — its steps up to its save;
* `Reviewer.GivenSave.browsed` — after its save the review only reads;
* `Reviewer.exists_givenSave` — when such a review saves.
-/

namespace ReviewQueue.Reviewer

/-! ## Steps that only read -/

section Reads

variable [Remote ω] {α : Type}

/-- A step at whose end the desk has at most been read from, and the executor is as it was. -/
def Reads (x : ReviewStep ω α) : Prop :=
  ∀ r, r.desk.Browsed (x.run.run r).2.desk ∧ (x.run.run r).2.executor = r.executor

/-- A step only reads when it keeps that the desk was at most read from. -/
theorem reads_iff (x : ReviewStep ω α) :
    Reads x ↔ ∀ (d : Desk ω) (e : Executor), Leads (fun d' e' => d.Browsed d' ∧ e' = e)
      (fun d' e' => d.Browsed d' ∧ e' = e) (fun _ => True) x := by
  constructor
  · rintro h d e r ⟨hdesk, rfl⟩
    exact ⟨⟨hdesk.trans (h r).1, (h r).2⟩, fun _ _ => trivial⟩
  · exact fun h r => (h r.desk r.executor r ⟨.refl, rfl⟩).1

theorem reads_present (s : Session) : Reads (ω := ω) (present s) :=
  (reads_iff _).mpr fun _ _ => leads_present (fun _ _ h => ⟨.settle h.1, h.2⟩) s

theorem reads_followed (template : String) (path : Option String) :
    Reads (ω := ω) (followed template path) :=
  (reads_iff _).mpr fun _ _ => leads_followed template path

theorem reads_firstPending (request : ReviewRequest) :
    Reads (ω := ω) (firstPending request) := by
  cases hpath : Endpoint.list request.project request.batch with
  | error e =>
      unfold firstPending
      rw [hpath]
      exact fun _ => ⟨.refl, rfl⟩
  | ok path =>
      intro r
      rw [firstPending_eq hpath]
      exact ⟨.get path .refl, rfl⟩

theorem reads_start (plan : ReviewPlan) : Reads (ω := ω) (start plan) := by
  refine (reads_iff _).mpr fun d e => ?_
  unfold start
  split
  · exact .pure trivial
  · refine .bind ((reads_iff _).mp (reads_firstPending plan.request) d e) fun first _ => ?_
    split
    · exact .pure trivial
    · exact .bind (.tell _) fun _ _ => .throw _

end Reads

/-! ## Sessions that can be shown -/

section Shown

variable {s : Session} {ids : List Int}

/-- A session shows its attachments when nothing but an empty list was ever read at their path. -/
theorem attachments_of_empty {c : Cache} (h : ∀ text ∈ (c.cached s.attachmentsPath).data,
    text = "[]\n") : ∃ shown, s.attachments c = .ok shown := by
  have hempty : Json.decode? none Attachment.fillAll "[]\n".toList = some (some []) := by
    decide +kernel
  unfold Session.attachments
  simp only
  split
  · rename_i text _ hdata
    obtain rfl := h text hdata
    rw [hempty]
    exact ⟨_, rfl⟩
  · exact ⟨_, rfl⟩

/-- A session can be shown when its attachments can be read and all of its siblings are there. -/
theorem not_lacks_of_hasIds {c : Cache} {shown : Buckets × Option LoadError}
    (hattachments : s.attachments c = .ok shown) (hsiblings : Siblings.HasIds s.siblings ids) :
    ¬ s.Lacks c := by
  rintro (⟨loaded, data, read, missing⟩ | ⟨-, split, -⟩)
  · obtain ⟨e, herror⟩ :=
      (Session.attachments_eq_error_iff s c).mpr ⟨_, _, loaded, data, read, missing⟩
    cases hattachments.symm.trans herror
  · have hmem : none ∈ s.siblings.map (Option.map Summary.id) := by
      rw [split]
      simp
    rw [hsiblings] at hmem
    obtain ⟨_, -, hid⟩ := List.mem_map.mp hmem
    cases hid

end Shown

/-! ## The save -/

section Save

variable [Remote ω] {plan : ReviewPlan} {r started saved : Reviewer ω} {id : String}
  {s given : Session}

/-- What the end of a run is reported as. -/
def reported : Except ReviewStop α → Option ReviewError
  | .error (.failed e) => some e
  | _ => none

/-- A review with a given verdict shows the submission that it starts at, saves the verdict on it,
and is over, whatever comes next. -/
theorem run_given {mounted : Reviewer ω} (hgiven : plan.request.verdictGiven = true)
    (hstart : (start plan).run.run r = (.ok id, started))
    (hmount : (mount plan id).run.run started = (.ok s, mounted)) :
    run plan r =
      (((present s >>= fun _ => reviewGiven plan s).run.run mounted).2,
        reported ((present s >>= fun _ => reviewGiven plan s).run.run mounted).1) := by
  have hone : (reviewOne plan id).run.run started =
      (present s >>= fun _ => reviewGiven plan s).run.run mounted := by
    unfold reviewOne
    rw [run_bind, hmount, hgiven]
    rfl
  generalize (present s >>= fun _ => reviewGiven plan s).run.run mounted = rest at hone ⊢
  have hwalk : ∀ fuel, (walk plan (fuel + 1) id).run.run started =
      (rest.1.map fun _ => (), rest.2) := by
    intro fuel
    unfold walk
    rw [run_bind, hone]
    rcases rest with ⟨_ | next, r'⟩
    · rfl
    · rw [hgiven, Bool.or_true]
      rfl
  unfold run
  simp only [run_bind, run_get, hstart, hwalk]
  rcases rest with ⟨(_ | e) | next, r'⟩ <;> rfl

/-- A review with a given verdict, up to its save: `s` is the session that was loaded and shown, and
`given` the one with the verdict in its form, which was saved with success. -/
inductive GivenSave (plan : ReviewPlan) (started : Reviewer ω) (id : String) (s given : Session)
    (saved : Reviewer ω) : Prop
  | intro (mounted shown : Reviewer ω) (path : Option String)
      (beforehand : plan.request.verdictGiven = true)
      (mounts : (mount plan id).run.run started = (.ok s, mounted))
      (presents : (present s).run.run mounted = (.ok (), shown))
      (gives : applyVerdict plan.request s >>= draftMissing plan.drafter = .ok given)
      (submits : (submit given).run.run shown = (.ok (.ok path), saved))

/-- After the save, the rest of the review only reads. -/
theorem GivenSave.browsed (h : GivenSave plan started id s given saved)
    (hstart : (start plan).run.run r = (.ok id, started)) :
    saved.desk.Browsed (run plan r).1.desk := by
  obtain ⟨mounted, shown, path, hgiven, hmount, hpresent, hgives, hsubmit⟩ := h
  have hrest : (present s >>= fun _ => reviewGiven plan s).run.run mounted =
      (followed plan.preferences.pathTemplate path).run.run saved := by
    rw [run_bind, hpresent]
    show (reviewGiven plan s).run.run shown = _
    unfold reviewGiven
    rw [hgives]
    show (submit given >>= _).run.run shown = _
    rw [run_bind, hsubmit]
  rw [run_given hgiven hstart hmount, hrest]
  exact (reads_followed plan.preferences.pathTemplate path saved).1

end Save

/-! ## Reviews that save -/

/-- The session of a submission of the queue can be shown when the submission has no attachments. -/
theorem exists_present_of_mount {plan : ReviewPlan} {r mounted : Reviewer (Wire RunningService)}
    {ids : List Int} {id : Int} {s : Session} (hplan : Plain plan)
    (hlists : r.desk.Lists plan.request.project plan.request.batch ids) (hid : id ∈ ids)
    (hnone : ∀ a ∈ r.desk.store.attachments, a.submissionId ≠ id)
    (hcache : ∀ text ∈ (r.desk.cache.cached (Endpoint.attachmentsPath (Text.ofInt id))).data,
      text = "[]\n")
    (hmount : (mount plan (Text.ofInt id)).run.run r = (.ok s, mounted)) :
    ∃ shown, (present s).run.run mounted = (.ok (), shown) := by
  obtain ⟨old, items, hget, hitems, hs⟩ := start_of_mount hplan hlists hid hmount
  have hpath : s.attachmentsPath = Endpoint.attachmentsPath (Text.ofInt id) := by rw [hs]; rfl
  have hsiblings : s.siblings = items := by rw [hs]; rfl
  obtain ⟨hsession, -⟩ := mount_eq_ok hmount
  have hsettle : r.desk.Browsed r.desk.settle := .settle .refl
  have hread : r.desk.Browsed mounted.desk.settle :=
    .settle (hsettle.trans (Session.browsed_of_mount hsession))
  -- every fetch of the attachments brings the empty list
  have hempty := hread.cached (P := fun data => ∀ text ∈ data, text = "[]\n") hcache
    fun d hsame data hdata => by
      have hstore : d.remote.peer.service.store = r.desk.store := hsame.store
      rw [← hstore] at hget hnone
      have hfetch := (hsame.client ▸ hlists.client).send_attachments_of_none d.remote.peer
        (hstore ▸ hlists.sound) hget hnone
      have heq := Except.ok.inj (hdata.symm.trans hfetch)
      rw [heq]
      exact fun text htext => (Option.some.inj htext).symm
  rw [← hpath] at hempty
  obtain ⟨shown, hshown⟩ := attachments_of_empty hempty
  exact exists_present (not_lacks_of_hasIds hshown (hsiblings ▸ hitems))

/-- A review saves the verdict that it is given when the gate lets it through and nothing is wrong
with it. -/
theorem exists_givenSave {plan : ReviewPlan} {started : Reviewer (Wire RunningService)}
    {ids : List Int} {id : Int} {old : Submission} {t : List Char} {form : Form}
    (hplan : Plain plan) (hbeforehand : plan.request.verdictGiven = true)
    (hlists : started.desk.Lists plan.request.project plan.request.batch ids) (hid : id ∈ ids)
    (hnone : ∀ a ∈ started.desk.store.attachments, a.submissionId ≠ id)
    (hcache : ∀ text ∈
      (started.desk.cache.cached (Endpoint.attachmentsPath (Text.ofInt id))).data, text = "[]\n")
    (hidle : started.executor.busy = false)
    (hget : started.desk.store.get id = .ok old) (hjson : old.json? = some t)
    (hraws : old.RawsWithin (Json.maxHeight - 1))
    (hgives : ∀ s : Session, s.submission = old.compacted → s.mode = Mode.of old →
      s.readOnly = isReadOnly plan.preferences.readOnlyStatuses old.compacted →
      s.form = Form.ofSubmission old.compacted →
      applyVerdict plan.request s >>= draftMissing plan.drafter = .ok { s with form })
    (hgate : form.canSubmit (Mode.of old)
      (isReadOnly plan.preferences.readOnlyStatuses old.compacted) false = true)
    (hjudged : Problem.find old (form.verdict (Mode.of old) old) = []) :
    ∃ s saved, s.submission = old.compacted ∧ s.mode = Mode.of old ∧
      GivenSave plan started (Text.ofInt id) s { s with form } saved := by
  obtain ⟨-, hmounts⟩ := mountable_of_lists hplan hlists hid
  obtain ⟨s, mounted, hmount⟩ := hmounts old t hget hjson hraws
  obtain ⟨shown, hpresent⟩ := exists_present_of_mount hplan hlists hid hnone hcache hmount
  obtain ⟨-, hexecutor⟩ := mount_eq_ok hmount
  obtain ⟨stored, items, hstored, -, hs⟩ := start_of_mount hplan hlists hid hmount
  obtain rfl := Except.ok.inj (hget.symm.trans hstored)
  have hsubmission : s.submission = old.compacted := by rw [hs]; rfl
  have hmode : s.mode = Mode.of old := by rw [hs]; rfl
  have hreadOnly : s.readOnly = isReadOnly plan.preferences.readOnlyStatuses old.compacted := by
    rw [hs]
    rfl
  have hform : s.form = Form.ofSubmission old.compacted := by rw [hs]; rfl
  obtain ⟨hreads, hkept⟩ := reads_present s mounted
  rw [hpresent] at hreads hkept
  have hok : (({ s with form } : Session).submit shown.executor shown.desk).result = .ok () := by
    refine result_of_form hplan hlists hid hget hmount hreads ?_ hjudged
    rw [hkept, hexecutor, hidle]
    exact hgate
  have hsubmit := submit_run { s with form } shown
  rw [hok] at hsubmit
  exact ⟨s, _, hsubmission, hmode, .intro mounted shown _ hbeforehand hmount hpresent
    (hgives s hsubmission hmode hreadOnly hform) hsubmit⟩

end ReviewQueue.Reviewer
