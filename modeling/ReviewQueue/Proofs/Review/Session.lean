import ReviewQueue.Proofs.Query.Desk
import ReviewQueue.Proofs.Review.Gate
import ReviewQueue.Review.Session

/-!
# From the loading of a session to its save

What a successful mount and a successful submit consist of, with everything that they did, and what
the calls in between can do to a session: they change its form and leave its length.

* `Session.mount_eq_ok`, `Session.submit_eq_ok` — the two ends of a review;
* `Session.edited_frame` — the calls in between.
-/

namespace ReviewQueue

/-! ## Writes -/

/-- A write that is not refused because of another one. -/
theorem Executor.trigger_of_sent {e : Executor} {actions : WriteActions σ} {world next : σ}
    {request : WriteRequest} {outcome : Outcome} (hidle : e.busy = false)
    (hsend : actions.send { busy := true } world { request with method := request.wireMethod } =
      (next, outcome)) :
    e.trigger actions world request =
      (e.reset, Executor.report { busy := true } actions next outcome,
        (outcome.map fun _ => ()).mapError (.failed request.path)) := by
  obtain ⟨busy⟩ := e
  subst hidle
  simp only [trigger, admit?, Bool.false_eq_true, if_false, hsend]
  rfl

namespace Coordinator

variable {e : Executor} {actions : CoordinatorActions σ} {c : Coordinator} {world next : σ}
  {s : Submission} {mode : Mode} {form : Form}

/-- The write of a save that is not refused because of another one. -/
theorem trigger_of_sent {outcome : Outcome} (hidle : e.busy = false)
    (hsend : actions.send world c.detailPath (form.verdict mode s) = (next, outcome)) :
    e.trigger (c.writeActions actions (form.verdict mode s)) (world, none)
        { method := "PUT"
          path := c.detailPath
          body := some (.ofList (form.verdict mode s).json) } =
      (e.reset, Executor.report { busy := true } (c.writeActions actions (form.verdict mode s))
        (next, none) outcome, (outcome.map fun _ => ()).mapError (.failed c.detailPath)) := by
  refine Executor.trigger_of_sent hidle ?_
  show (((actions.send world c.detailPath _).1, none), (actions.send world c.detailPath _).2) = _
  rw [hsend]

/-- A save whose write succeeds. -/
theorem submit_of_sent {data : Option String} (hidle : e.busy = false)
    (hsend : actions.send world c.detailPath (form.verdict mode s) = (next, .ok data)) :
    c.submit e actions world s mode form =
      (e.reset, c.succeed actions next, .ok (saved? data)) := by
  simp only [submit, trigger_of_sent hidle hsend]
  rfl

/-- A save whose write fails. -/
theorem submit_of_failed {cause : RequestError} (hidle : e.busy = false)
    (hsend : actions.send world c.detailPath (form.verdict mode s) = (next, .error cause)) :
    c.submit e actions world s mode form =
      (e.reset, fail actions next cause.info, .error (.failed c.detailPath cause)) := by
  simp only [submit, trigger_of_sent hidle hsend]
  rfl

end Coordinator

namespace Session

/-! ## Mounting -/

/-- The paths of a session can be built when each of them can be. -/
theorem Paths.of_eq_ok_iff (p : SessionParams) (paths : Paths) :
    Paths.of p = .ok paths ↔
      Endpoint.detail p.submissionId = .ok paths.detail ∧
        Endpoint.list p.projectId p.batchId = .ok paths.list ∧
        Endpoint.attachments p.submissionId = .ok paths.attachments := by
  obtain ⟨detail, list, attachments⟩ := paths
  unfold Paths.of
  cases Endpoint.detail p.submissionId <;> cases Endpoint.list p.projectId p.batchId <;>
    cases Endpoint.attachments p.submissionId <;>
    simp [bind, Except.bind, pure, Except.pure]

/-- A mount whose paths cannot be built does nothing. -/
theorem mount_of_unbuilt [Remote ω] {d : Desk ω} {p : SessionParams} {e : RouteError}
    (hpaths : Paths.of p = .error e) : Session.mount d p = (d, .error (.route e)) := by
  unfold mount
  rw [hpaths]

/-- A mount that succeeded: the submission was fetched, and then the siblings were found. -/
theorem mount_eq_ok [Remote ω] {d d' : Desk ω} {p : SessionParams} {s : Session}
    (h : Session.mount d p = (d', .ok s)) :
    ∃ paths data loaded, Paths.of p = .ok paths ∧
      (Remote.fetch d.remote paths.detail).2 = .ok data ∧
      Json.decode? {} Submission.fill (data.getD "").toList = some loaded ∧
      let resolved := Siblings.resolve ((d.prefetch paths.attachments).get paths.detail).1
        (if p.listKey = "" then paths.list else p.listKey) paths.list
      d' = resolved.1 ∧
        s = start p paths { loaded with parts := loaded.parts.map Part.sort } resolved.2.1
          resolved.2.2 := by
  unfold mount at h
  cases hpaths : Paths.of p with
  | error e =>
      rw [hpaths] at h
      cases h
  | ok paths =>
      rw [hpaths] at h
      simp only [Prod.mk.injEq] at h
      obtain ⟨hdesk, hread⟩ := h
      cases herror : ((d.prefetch paths.attachments).get paths.detail).2.error with
      | some e => simp [readSubmission, herror, Except.map] at hread
      | none =>
          -- no error was shown, so the fetch brought something to decode
          have hfetched := Desk.fetched_of_get herror
          rw [Desk.remote_prefetch] at hfetched
          cases hdecode : Json.decode? {} Submission.fill
              ((((d.prefetch paths.attachments).get paths.detail).2.data).getD "").toList with
          | none => simp [readSubmission, herror, hdecode, Except.map] at hread
          | some loaded =>
              simp only [readSubmission, herror, hdecode, Except.map, Except.ok.injEq] at hread
              exact ⟨paths, _, loaded, rfl, hfetched, hdecode, hdesk.symm, hread.symm⟩

/-- A mount succeeds when the submission can be fetched and decoded. -/
theorem mount_of_fetched [Remote ω] {d : Desk ω} {p : SessionParams} {paths : Paths}
    {data : Option String} {loaded : Submission} (hpaths : Paths.of p = .ok paths)
    (hfetch : (Remote.fetch d.remote paths.detail).2 = .ok data)
    (hloaded : Json.decode? {} Submission.fill (data.getD "").toList = some loaded) :
    ∃ d' siblings error, Session.mount d p =
      (d', .ok (start p paths { loaded with parts := loaded.parts.map Part.sort } siblings
        error)) := by
  rw [← Desk.remote_prefetch d paths.attachments] at hfetch
  obtain ⟨herror, hdata⟩ := Desk.get_of_fetched hfetch
  have hread : readSubmission p.submissionId
      ((d.prefetch paths.attachments).get paths.detail).2 =
        .ok { loaded with parts := loaded.parts.map Part.sort } := by
    rw [readSubmission, herror, hdata]
    simp only [hloaded]
  unfold mount
  rw [hpaths]
  show ∃ d' siblings error, (_, Except.map _ (readSubmission p.submissionId
    ((d.prefetch paths.attachments).get paths.detail).2)) = _
  rw [hread]
  exact ⟨_, _, _, rfl⟩

theorem navigator_start (p : SessionParams) (paths : Paths) (s : Submission)
    (siblings : List (Option Summary)) (error : Option RequestError) :
    (start p paths s siblings error).navigator =
      Navigator.locate siblings p.submissionId
        (if p.pathTemplate = "" then Route.defaultTemplate else p.pathTemplate)
        [(Route.projectId, p.projectId), (Route.batchId, p.batchId)] := rfl

/-- A form that shows a submission has an entry for every part. -/
theorem aligned_ofSubmission (s : Submission) : (Form.ofSubmission s).Aligned s := by
  intro hmode
  rw [Form.ofSubmission, hmode]
  exact ⟨List.length_map _, List.length_map _⟩

/-! ## The calls in between -/

/-- A call that changes the form. -/
inductive Edit where
  | status (status : Status)
  | feedback (feedback : String)
  | part (position : Int) (status : Status) (feedback : String)
  deriving DecidableEq, Repr

/-- The session after a call. A call for a part that is not there changes nothing. -/
def edit (s : Session) : Edit → Session
  | .status status => s.setStatus status
  | .feedback feedback => s.setFeedback feedback
  | .part position status feedback => (s.setPart position status feedback).toOption.getD s

/-- The session after calls, one after the other. -/
def edited (s : Session) (edits : List Edit) : Session := edits.foldl edit s

/-- A call changes the form, and leaves as many entries as there were. -/
theorem edit_frame (s : Session) (e : Edit) :
    ∃ form, s.edit e = { s with form } ∧
      form.partsStatus.length = s.form.partsStatus.length ∧
      form.partsFeedback.length = s.form.partsFeedback.length := by
  cases e with
  | status status => exact ⟨_, rfl, rfl, rfl⟩
  | feedback feedback => exact ⟨_, rfl, rfl, rfl⟩
  | part position status feedback =>
      show ∃ form, (s.setPart position status feedback).toOption.getD s = _ ∧ _
      unfold setPart
      split
      · exact ⟨_, rfl, List.length_set, List.length_set⟩
      · exact ⟨s.form, rfl, rfl, rfl⟩

theorem edited_frame (s : Session) (edits : List Edit) :
    ∃ form, s.edited edits = { s with form } ∧
      form.partsStatus.length = s.form.partsStatus.length ∧
      form.partsFeedback.length = s.form.partsFeedback.length := by
  induction edits generalizing s with
  | nil => exact ⟨s.form, rfl, rfl, rfl⟩
  | cons e edits ih =>
      obtain ⟨form, hedit, hstatus, hfeedback⟩ := edit_frame s e
      obtain ⟨form', hedited, hstatus', hfeedback'⟩ := ih (s.edit e)
      rw [edited, List.foldl_cons]
      rw [hedit] at hedited hstatus' hfeedback' ⊢
      exact ⟨form', hedited, hstatus'.trans hstatus, hfeedback'.trans hfeedback⟩

/-! ## Saving -/

/-- What a submit does when its write succeeds. -/
structure Written [Remote ω] (s : Session) (d : Desk ω) (remote : ω) (data : Option String)
    (saved : Submitted ω) : Prop where
  sent : Remote.send d.remote "PUT" s.coordinator.detailPath
      (some (.ofList (s.form.verdict s.mode s.submission).json)) = (remote, .ok data)
  desk : saved.desk = ({ d with remote }).refresh [s.coordinator.listPath]
  session : saved.session =
    (match Coordinator.saved? data with
    | some submission => { s with submission }
    | none => s)
  idle : saved.executor.busy = false
  calls : saved.calls =
    [.put s.coordinator.detailPath (s.form.verdict s.mode s.submission),
      .notify (.success s.coordinator.successMessage), .refresh s.coordinator.listPath] ++
        s.navigator.advance?.toList.map .visit

theorem idle_of_canSubmit {s : Session} {e : Executor} (h : s.canSubmit e = true) :
    e.busy = false := by
  cases hbusy : e.busy with
  | false => rfl
  | true => simp [canSubmit, Form.canSubmit, hbusy] at h

/-- A submit that succeeded: the gate was open, and the write succeeded. -/
theorem submit_eq_ok [Remote ω] {s : Session} {e : Executor} {d : Desk ω}
    (h : (s.submit e d).result = .ok ()) :
    s.canSubmit e = true ∧ ∃ remote data, Written s d remote data (s.submit e d) := by
  cases hgate : s.canSubmit e with
  | false =>
      rw [submit, hgate] at h
      cases h
  | true =>
      have hidle := idle_of_canSubmit hgate
      cases hsend : Remote.send d.remote "PUT" s.coordinator.detailPath
          (some (.ofList (s.form.verdict s.mode s.submission).json)) with
      | mk remote outcome =>
          have hstep : (submitActions s.navigator).send ⟨d, []⟩ s.coordinator.detailPath
              (s.form.verdict s.mode s.submission) =
              (⟨{ d with remote }, [.put s.coordinator.detailPath
                (s.form.verdict s.mode s.submission)]⟩, outcome) := by
            simp only [submitActions, hsend]
          unfold submit at h ⊢
          cases outcome with
          | error cause =>
              simp only [hgate, Bool.not_true, Bool.false_eq_true, if_false,
                Coordinator.submit_of_failed hidle hstep] at h
              cases h
          | ok data =>
              simp only [hgate, Bool.not_true, Bool.false_eq_true, if_false,
                Coordinator.submit_of_sent hidle hstep]
              refine ⟨trivial, remote, data, hsend, ?_, ?_, rfl, ?_⟩
              · -- a next submission adds one more call, and changes nothing else
                simp only [Coordinator.succeed, submitActions]
                cases s.navigator.advance? <;> rfl
              · cases Coordinator.saved? data <;> rfl
              · simp only [Coordinator.succeed, submitActions]
                cases s.navigator.advance? <;> rfl

/-- A submit succeeds when the gate is open and the write succeeds. -/
theorem result_of_sent [Remote ω] {s : Session} {e : Executor} {d : Desk ω}
    {remote : ω} {data : Option String} (hgate : s.canSubmit e = true)
    (hsend : Remote.send d.remote "PUT" s.coordinator.detailPath
      (some (.ofList (s.form.verdict s.mode s.submission).json)) = (remote, .ok data)) :
    (s.submit e d).result = .ok () := by
  have hstep : (submitActions s.navigator).send ⟨d, []⟩ s.coordinator.detailPath
      (s.form.verdict s.mode s.submission) =
      (⟨{ d with remote }, [.put s.coordinator.detailPath
        (s.form.verdict s.mode s.submission)]⟩, .ok data) := by
    simp only [submitActions, hsend]
  unfold submit
  simp only [hgate, Bool.not_true, Bool.false_eq_true, if_false,
    Coordinator.submit_of_sent (idle_of_canSubmit hgate) hstep]
  rfl

end Session
end ReviewQueue
