import ReviewQueue.Proofs.Review.Neighbours
import ReviewQueue.Proofs.Review.Session

/-!
# What a submit does outside

A submit asks the gate, sends one write, and tells what came of it. Its calls to the outside have
one of three shapes, and the gate and the outcome of the write decide which:

* `Session.Refused` — the gate is shut, and nothing is called;
* `Session.Written` — the write succeeds: a notice, the refresh of the list, and the way to the next
  submission if there is one;
* `Session.Failed` — the write fails: the notices of its failure, and nothing else.

`submit_effects` says so of every session, and that nothing is ever called for a read-only one.
-/

namespace ReviewQueue

/-- There is a next submission, and the path to it can be built. -/
def Navigator.LeadsTo (n : Navigator) (path : String) : Prop :=
  ∃ id, n.next = some id ∧
    Route.build n.template ((Route.submissionId, Text.ofInt id) :: n.params) = .ok path

theorem Navigator.advance?_eq_some_iff (n : Navigator) (path : String) :
    n.advance? = some path ↔ n.LeadsTo path := by
  rw [LeadsTo, ← pathTo_eq_ok_iff]
  show (n.pathTo n.next).toOption = some path ↔ _
  cases n.pathTo n.next <;> simp [Except.toOption]

namespace Session

/-! ## The three shapes -/

/-- A session that cannot be saved now: a write is under way, or the gate is closed. -/
def Shut (s : Session) (e : Executor) : Prop :=
  e.busy = true ∨ s.form.canSubmit s.mode s.readOnly false = false

theorem canSubmit_eq_false_iff (s : Session) (e : Executor) :
    s.canSubmit e = false ↔ s.Shut e := by
  unfold canSubmit Shut
  cases e.busy <;> simp [Form.canSubmit]

section Shapes

variable [Remote ω]

/-- The write that saves the form, and its outcome. -/
def put (s : Session) (d : Desk ω) : ω × Outcome :=
  Remote.send d.remote "PUT" s.coordinator.detailPath
    (some (.ofList (s.form.verdict s.mode s.submission).json))

/-- What a submit does when the session is shut: nothing. -/
structure Refused (s : Session) (e : Executor) (d : Desk ω) (left : Submitted ω) : Prop where
  calls : left.calls = []
  desk : left.desk = d
  executor : left.executor = e
  session : left.session = s
  result : left.result = .error (if e.busy then .write .inFlight else .notReady)

/-- What a submit does when its write fails. -/
structure Failed (s : Session) (d : Desk ω) (remote : ω) (cause : RequestError)
    (left : Submitted ω) : Prop where
  calls : left.calls =
    .put s.coordinator.detailPath (s.form.verdict s.mode s.submission) ::
      (Notice.ofInfo cause.info).map .notify
  desk : left.desk = { d with remote }
  idle : left.executor.busy = false
  session : left.session = s
  result : left.result = .error (.write (.failed s.coordinator.detailPath cause))

variable {s : Session} {e : Executor} {d : Desk ω} {remote : ω}

theorem submit_of_shut (h : s.Shut e) : s.Refused e d (s.submit e d) := by
  have hgate := (canSubmit_eq_false_iff s e).mpr h
  unfold submit
  simp only [hgate, Bool.not_false, if_true]
  exact ⟨rfl, rfl, rfl, rfl, rfl⟩

theorem canSubmit_of_not_shut (h : ¬ s.Shut e) : s.canSubmit e = true := by
  rw [← canSubmit_eq_false_iff] at h
  simpa using h

/-- The notices of a failure are told one by one, after what was called before. -/
theorem calls_fail (n : Navigator) (t : Trace ω) (info : List Notice) :
    Coordinator.fail (submitActions n) t info =
      { t with calls := ((Notice.ofInfo info).map OutsideCall.notify).reverse ++ t.calls } := by
  unfold Coordinator.fail
  generalize Notice.ofInfo info = notices
  induction notices generalizing t with
  | nil => rfl
  | cons notice notices ih =>
      rw [List.foldl_cons, ih]
      simp [submitActions]

theorem submit_of_failed (h : ¬ s.Shut e) {cause : RequestError}
    (hput : s.put d = (remote, .error cause)) : s.Failed d remote cause (s.submit e d) := by
  have hgate := canSubmit_of_not_shut h
  have hstep : (submitActions s.navigator).send ⟨d, []⟩ s.coordinator.detailPath
      (s.form.verdict s.mode s.submission) =
      (⟨{ d with remote }, [.put s.coordinator.detailPath
        (s.form.verdict s.mode s.submission)]⟩, .error cause) := by
    unfold put at hput
    simp only [submitActions, hput]
  unfold submit
  simp only [hgate, Bool.not_true, Bool.false_eq_true, if_false,
    Coordinator.submit_of_failed (idle_of_canSubmit hgate) hstep, calls_fail]
  exact ⟨by simp, rfl, rfl, rfl, rfl⟩

theorem submit_of_written (h : ¬ s.Shut e) {data : Option String}
    (hput : s.put d = (remote, .ok data)) :
    s.Written d remote data (s.submit e d) ∧ (s.submit e d).result = .ok () := by
  have hok := result_of_sent (canSubmit_of_not_shut h) hput
  obtain ⟨-, remote', data', hwritten⟩ := submit_eq_ok hok
  -- there is only one write, so the one that succeeded is this one
  obtain ⟨rfl, hdata⟩ := Prod.mk.inj (hwritten.sent.symm.trans hput)
  obtain rfl := Except.ok.inj hdata
  exact ⟨hwritten, hok⟩

/-- After a save the review goes to the next submission, if there is one and its path can be
built, and nowhere else. -/
theorem Written.visit_mem_iff {data : Option String} {left : Submitted ω}
    (h : s.Written d remote data left) (path : String) :
    .visit path ∈ left.calls ↔ s.navigator.LeadsTo path := by
  rw [← Navigator.advance?_eq_some_iff, h.calls]
  simp

end Shapes

/-! ## Sessions in use -/

/-- Something that is done to a session: its form is changed, or it is submitted while writes go
through an executor. -/
inductive Act where
  | edit (e : Edit)
  | submit (e : Executor)

/-- A session in use, its desk, and the calls to the outside so far, in order. -/
structure InUse (ω : Type) where
  session : Session
  desk : Desk ω
  calls : List OutsideCall := []

section InUse

variable [Remote ω]

def InUse.act (x : InUse ω) : Act → InUse ω
  | .edit e => { x with session := x.session.edit e }
  | .submit e =>
    let left := x.session.submit e x.desk
    ⟨left.session, left.desk, x.calls ++ left.calls⟩

/-- What one thing after the other leads to. -/
def InUse.run (x : InUse ω) (acts : List Act) : InUse ω := acts.foldl act x

theorem shut_of_readOnly {s : Session} (h : s.readOnly = true) (e : Executor) : s.Shut e := by
  right
  simp [Form.canSubmit, h]

/-- Whatever is done to a read-only session changes its form at most. -/
theorem InUse.act_of_readOnly (x : InUse ω) (h : x.session.readOnly = true) (a : Act) :
    ∃ form, x.act a = { x with session := { x.session with form } } := by
  cases a with
  | edit e =>
      obtain ⟨form, hedit, -, -⟩ := edit_frame x.session e
      exact ⟨form, by rw [act, hedit]⟩
  | submit e =>
      have hrefused := submit_of_shut (d := x.desk) (shut_of_readOnly h e)
      refine ⟨x.session.form, ?_⟩
      simp only [act, hrefused.session, hrefused.desk, hrefused.calls, List.append_nil]

theorem InUse.run_of_readOnly (x : InUse ω) (h : x.session.readOnly = true) (acts : List Act) :
    ∃ form, x.run acts = { x with session := { x.session with form } } := by
  induction acts generalizing x with
  | nil => exact ⟨x.session.form, rfl⟩
  | cons a acts ih =>
      obtain ⟨form, hact⟩ := x.act_of_readOnly h a
      obtain ⟨form', hrun⟩ := ih { x with session := { x.session with form } } h
      refine ⟨form', ?_⟩
      rw [run, List.foldl_cons, hact]
      exact hrun

end InUse

/-! ## Sessions of given parameters -/

/-- A session that was mounted with these parameters, and was edited and submitted since. -/
inductive Held (p : SessionParams) : Session → Prop
  | mounted {ω : Type} [Remote ω] {d d' : Desk ω} {s : Session} :
      Session.mount d p = (d', .ok s) → Held p s
  | edited {s : Session} (e : Edit) : Held p s → Held p (s.edit e)
  | submitted {ω : Type} [Remote ω] {s : Session} (e : Executor) (d : Desk ω) :
      Held p s → Held p (s.submit e d).session

/-- What its parameters say about the saves of a session: where it saves to, what it refreshes, what
it says, and where it goes from there. It goes to the entry behind the first one of its siblings
with the id of the parameters, when this has an id other than zero and its path can be built. -/
structure Follows (p : SessionParams) (s : Session) : Prop where
  detail : Endpoint.detail p.submissionId = .ok s.coordinator.detailPath
  list : Endpoint.list p.projectId p.batchId = .ok s.coordinator.listPath
  message : s.coordinator.successMessage =
    if p.successMessage = "" then Preferences.defaultSuccessMessage else p.successMessage
  navigator : s.navigator = Navigator.locate s.siblings p.submissionId
    (if p.pathTemplate = "" then Route.defaultTemplate else p.pathTemplate)
    [(Route.projectId, p.projectId), (Route.batchId, p.batchId)]
  leads : ∀ path, s.navigator.LeadsTo path ↔
    ∃ id i next, Text.toInt? p.submissionId = some id ∧ Siblings.IsFirst s.siblings id i ∧
      Siblings.idAt? s.siblings (i + 1) = some next ∧ next ≠ 0 ∧
      Route.build (if p.pathTemplate = "" then Route.defaultTemplate else p.pathTemplate)
        [(Route.submissionId, Text.ofInt next), (Route.projectId, p.projectId),
          (Route.batchId, p.batchId)] = .ok path

/-- A submit changes no more of a session than the submission that it shows. -/
theorem submit_frame [Remote ω] (s : Session) (e : Executor) (d : Desk ω) :
    ∃ submission, (s.submit e d).session = { s with submission } := by
  unfold submit
  split
  · exact ⟨s.submission, rfl⟩
  · simp only
    split
    · exact ⟨_, rfl⟩
    · exact ⟨s.submission, rfl⟩

theorem follows_of_mount [Remote ω] {d d' : Desk ω} {p : SessionParams} {s : Session}
    (h : Session.mount d p = (d', .ok s)) : s.Follows p := by
  obtain ⟨paths, data, loaded, hpaths, -, -, -, rfl⟩ := mount_eq_ok h
  obtain ⟨hdetail, hlist, -⟩ := (Paths.of_eq_ok_iff p paths).mp hpaths
  refine ⟨hdetail, hlist, rfl, rfl, fun path => ?_⟩
  rw [navigator_start]
  simp only [Navigator.LeadsTo, Navigator.next_eq_some_iff, Navigator.locate_template,
    Navigator.locate_params]
  constructor
  · rintro ⟨next, ⟨id, i, hid, hfirst, hnext, hzero⟩, hbuild⟩
    exact ⟨id, i, next, hid, hfirst, hnext, hzero, hbuild⟩
  · rintro ⟨id, i, next, hid, hfirst, hnext, hzero, hbuild⟩
    exact ⟨next, ⟨id, i, hid, hfirst, hnext, hzero⟩, hbuild⟩

/-- Whatever is done to a session, it follows the parameters that it was mounted with. -/
theorem Held.follows {p : SessionParams} {s : Session} (h : s.Held p) : s.Follows p := by
  induction h with
  | mounted hmount => exact follows_of_mount hmount
  | @edited s e _ ih =>
      obtain ⟨form, hedit, -, -⟩ := edit_frame s e
      rw [hedit]
      exact { ih with }
  | @submitted ω _ s e d _ ih =>
      obtain ⟨submission, hsubmit⟩ := submit_frame s e d
      rw [hsubmit]
      exact { ih with }

end Session

/-- **A submit does one of three things.** When the session is shut, it calls nothing and says
whether a write is under way. Otherwise it sends one write: when that succeeds, a notice, the
refresh of the list and the way to the next submission follow, the last exactly when there is one
whose path can be built; when it fails, the notices of the failure follow, and the session stays as
it is. Whatever is done to a read-only session, nothing is ever called, and nothing but its form
changes. Where a session saves to, what it refreshes, what it says and which of its siblings is the
next one is given by the parameters that it was mounted with. -/
theorem submit_effects [Remote ω] (s : Session) (e : Executor) (d : Desk ω) :
    (s.Shut e → s.Refused e d (s.submit e d)) ∧
    (¬ s.Shut e → ∀ remote,
      (∀ data, s.put d = (remote, .ok data) →
        s.Written d remote data (s.submit e d) ∧ (s.submit e d).result = .ok () ∧
          ∀ path, .visit path ∈ (s.submit e d).calls ↔ s.navigator.LeadsTo path) ∧
      ∀ cause, s.put d = (remote, .error cause) → s.Failed d remote cause (s.submit e d)) ∧
    (s.readOnly = true → ∀ acts, ∃ form,
      ({ session := s, desk := d } : Session.InUse ω).run acts =
        { session := { s with form }, desk := d, calls := [] }) ∧
    ∀ p, s.Held p → s.Follows p := by
  refine ⟨Session.submit_of_shut, fun hopen remote => ⟨fun data hput => ?_, fun cause hput => ?_⟩,
    fun h acts => Session.InUse.run_of_readOnly _ h acts,
    fun _ hheld => hheld.follows⟩
  · obtain ⟨hwritten, hok⟩ := Session.submit_of_written hopen hput
    exact ⟨hwritten, hok, hwritten.visit_mem_iff⟩
  · exact Session.submit_of_failed hopen hput

end ReviewQueue
