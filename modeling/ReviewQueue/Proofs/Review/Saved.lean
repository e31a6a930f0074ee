import ReviewQueue.Proofs.Query.Browsed
import ReviewQueue.Proofs.Remote.Update
import ReviewQueue.Proofs.Review.Session

/-!
# Saves that succeeded

A session that was loaded through a client and edited is saved by one write to the path that it was
loaded from. When the write succeeds and nothing else was written in between, it has reached the
submission that was loaded.

* `Form.verdict_portable`, `Form.trimmed_verdict` — the update of a form is decoded as it was made;
* `Session.saved_of_submit` — what a save that succeeded did to the store and to the session.
-/

namespace ReviewQueue

/-! ## The update that a form makes -/

namespace Form

theorem index_partVerdicts (id : Int) (parts : List Part) (statuses : List Status)
    (feedbacks : List String) :
    (partVerdicts id parts statuses feedbacks).map PartVerdict.index = parts.map Part.index := by
  induction parts generalizing statuses feedbacks with
  | nil => rfl
  | cons p parts ih => exact congrArg (p.index :: ·) (ih statuses.tail feedbacks.tail)

theorem submission_of_mem_partVerdicts {id : Int} {parts : List Part} {statuses : List Status}
    {feedbacks : List String} :
    ∀ d ∈ partVerdicts id parts statuses feedbacks, d.submission = id := by
  induction parts generalizing statuses feedbacks with
  | nil => simp [partVerdicts]
  | cons p parts ih => exact List.forall_mem_cons.mpr ⟨rfl, ih⟩

theorem verdict_portable {s : Submission} (hs : s.Portable) (form : Form) (mode : Mode) :
    (form.verdict mode s).Portable := by
  cases mode with
  | single => exact ⟨hs.timeElapsed, by simp [verdict]⟩
  | parts =>
      refine ⟨hs.timeElapsed, fun d hd => ⟨?_, ?_⟩⟩
      · rw [submission_of_mem_partVerdicts d hd]
        exact hs.id
      · have hindex := List.mem_map_of_mem (f := PartVerdict.index) hd
        rw [verdict, Option.getD_some, index_partVerdicts] at hindex
        obtain ⟨p, hp, heq⟩ := List.mem_map.mp hindex
        rw [← heq]
        exact hs.parts p hp

/-- The update has part verdicts exactly in parts mode. -/
theorem hasParts_verdict (form : Form) (s : Submission) :
    (form.verdict (Mode.of s) s).hasParts = s.hasParts := by
  unfold Mode.of
  cases hparts : s.hasParts with
  | false => rfl
  | true =>
      cases hlist : s.partList with
      | nil => simp [Submission.hasParts, hlist] at hparts
      | cons p rest => simp [verdict, Verdict.hasParts, Verdict.partList, hlist, partVerdicts]

theorem trimmed_verdict (form : Form) (s : Submission) :
    (form.verdict (Mode.of s) s).trimmed = form.verdict (Mode.of s) s := by
  cases hparts : s.hasParts with
  | true => exact Verdict.trimmed_of_hasParts (by rw [hasParts_verdict, hparts])
  | false =>
      have hmode : Mode.of s = .single := by simp [Mode.of, hparts]
      rw [hmode]
      exact Verdict.trimmed_of_not_hasParts rfl

end Form

/-! ## Saves that succeeded -/

namespace Session

/-- What a save of a session did: to a store, in which it found a submission, and to the session. -/
structure Saved (s : Session) (before after : Store) (result : Session) (old : Submission)
    (now : Moment) : Prop where
  found : before.get s.submission.id = .ok old
  shown : s.submission = old.compacted
  mode : s.mode = Mode.of old
  aligned : s.form.Aligned old
  gate : s.form.canSubmit s.mode false false = true
  judged : Problem.find old (s.form.verdict s.mode old) = []
  written : after = before.reviewed now s.submission.id (s.form.verdict s.mode old)
  result : result =
    { s with submission := (old.reviewed now (s.form.verdict s.mode old)).compacted }

/-- Sorted parts stay as they are when a submission is read. -/
theorem sort_compacted {store : Store} {id : Int} {s : Submission} (h : store.get id = .ok s) :
    { s.compacted with parts := s.compacted.parts.map Part.sort } = s.compacted := by
  obtain ⟨-, r, -, -, rfl⟩ := Store.get_eq_ok_iff.mp h
  have hsort : Option.map Part.sort (some (store.partsOf id)) = some (store.partsOf id) := by
    rw [Option.map_some, Store.sort_partsOf]
  exact congrArg (fun parts =>
    { (r.submission (store.partsOf id)).compacted with parts }) hsort

theorem id_of_get {store : Store} {id : Int} {s : Submission} (h : store.get id = .ok s) :
    s.id = id := by
  obtain ⟨-, r, hrow, -, rfl⟩ := Store.get_eq_ok_iff.mp h
  exact (Store.row?_eq_some hrow).2

theorem gate_of_canSubmit {s : Session} {e : Executor} (h : s.canSubmit e = true) :
    s.form.canSubmit s.mode false false = true := by
  unfold canSubmit Form.canSubmit at h
  split at h
  · cases h
  · exact h

variable {d d' w : Desk (Wire RunningService)} {p : SessionParams} {s : Session} {e : Executor}

/-- What a session shows right after it was mounted is what was read at its path. -/
theorem read_of_mount (hmount : Session.mount d p = (d', .ok s)) :
    ∃ peer data loaded,
      d.remote.client.send d.remote.peer "GET" s.coordinator.detailPath none = (peer, .ok data) ∧
      Json.decode? {} Submission.fill (data.getD "").toList = some loaded ∧
      s.submission = { loaded with parts := loaded.parts.map Part.sort } ∧
      s.mode = Mode.of s.submission ∧ s.form = Form.ofSubmission s.submission := by
  obtain ⟨paths, data, loaded, -, hfetch, hloaded, -, rfl⟩ := mount_eq_ok hmount
  exact ⟨_, data, loaded, Prod.ext rfl hfetch, hloaded, rfl, rfl, rfl⟩

/-- The write of a save, as the client makes it. -/
theorem put_of_written {remote : Wire RunningService} {data : Option String}
    {saved : Submitted (Wire RunningService)} (h : Written s w remote data saved) :
    w.remote.client.send w.remote.peer "PUT" s.coordinator.detailPath
        (some (.ofList (s.form.verdict s.mode s.submission).json)) =
      (saved.desk.remote.peer, .ok data) := by
  have hpeer : saved.desk.remote.peer = remote.peer := by
    rw [h.desk, Desk.remote_refresh]
  have hfirst := congrArg (fun result => result.1.peer) h.sent
  have hsecond := congrArg Prod.snd h.sent
  rw [hpeer]
  exact Prod.ext hfirst hsecond

/-- **A save that succeeded was written in full to the submission that was mounted**, whatever the
form became in between. -/
theorem saved_of_submit_form (hmount : Session.mount d p = (d', .ok s))
    (hsound : d.store.Sound) {form : Form}
    (hstatuses : form.partsStatus.length = s.form.partsStatus.length)
    (hfeedbacks : form.partsFeedback.length = s.form.partsFeedback.length)
    (hclient : w.remote.client = d.remote.client)
    (hstore : w.store = d.store)
    (hclock : w.remote.peer.clock.Sound)
    (hok : ({ s with form }.submit e w).result = .ok ()) :
    ∃ old now, { s with form }.Saved d.store ({ s with form }.submit e w).desk.store
      ({ s with form }.submit e w).session old now := by
  obtain ⟨peer, data, loaded, hread, hloaded, hsubmission, hmode, hform⟩ := read_of_mount hmount
  obtain ⟨hcan, remote, answer, hwritten⟩ := submit_eq_ok hok
  have hput := put_of_written hwritten
  rw [hclient] at hput
  obtain ⟨id, v, old, now, hshown, hupdate⟩ :=
    Client.update_accepted hread hloaded hput hstore hclock
  have hold := hsound.portable hupdate.found
  -- what was read is the stored submission in compact form
  rw [hshown, Option.getD_some] at hloaded
  obtain ⟨⟨t, ht⟩, hraws, rfl⟩ := Submission.shown_of_decode hold hloaded
  have hshown : s.submission = old.compacted := hsubmission.trans (sort_compacted hupdate.found)
  have hid : s.submission.id = id := by
    rw [hshown]
    exact id_of_get (s := old) hupdate.found
  have hmode' : s.mode = Mode.of old := by
    rw [hmode, hshown]
    rfl
  -- what was sent is what was decoded
  have hverdict : v = form.verdict s.mode old := by
    have hdecoded := hupdate.decoded
    have hprints :=
      (Verdict.prints (Form.verdict_portable hold form s.mode)).decodeFirst (by decide)
    rw [String.toList_ofList, hshown] at hdecoded
    change Json.decodeFirst? {} Verdict.fill (form.verdict s.mode old).json = some v at hdecoded
    rw [hdecoded, hmode', Form.trimmed_verdict, ← hmode'] at hprints
    exact Option.some.inj hprints
  -- the saved submission is read out of the answer
  have hsaved : Coordinator.saved? answer =
      some (old.reviewed now v).compacted := by
    have hget := Store.get_reviewed v now hupdate.found
    obtain ⟨t', ht'⟩ := Submission.exists_json_reviewed ht now v
    have helapsed : fitsWord v.timeElapsed = true := by
      rw [hverdict]
      exact (Form.verdict_portable hold form s.mode).timeElapsed
    have hportable := (hsound.reviewed now id helapsed).portable hget
    rw [hupdate.saved]
    simp only [Coordinator.saved?, bind, Option.bind,
      Submission.decode_body hportable { hraws with } ht', pure]
    exact congrArg some (sort_compacted hget)
  refine ⟨old, now, ?_, hshown, hmode', ?_, gate_of_canSubmit hcan, ?_, ?_, ?_⟩
  · show d.store.get s.submission.id = _
    rw [hid]
    exact hupdate.found
  · intro hparts
    have haligned := aligned_ofSubmission s.submission (hmode.symm.trans (hmode'.trans hparts))
    rw [← hform, hshown] at haligned
    exact ⟨hstatuses.trans haligned.1, hfeedbacks.trans haligned.2⟩
  · rw [← hverdict]
    exact hupdate.judged
  · show _ = d.store.reviewed _ s.submission.id (form.verdict s.mode old)
    rw [hid, ← hverdict]
    exact hupdate.written
  · rw [hwritten.session, hsaved, hverdict]

/-- The same for a session that was edited by calls. -/
theorem saved_of_submit (hmount : Session.mount d p = (d', .ok s))
    (hsound : d.store.Sound) (edits : List Edit)
    (hclient : w.remote.client = d.remote.client)
    (hstore : w.store = d.store)
    (hclock : w.remote.peer.clock.Sound)
    (hok : ((s.edited edits).submit e w).result = .ok ()) :
    ∃ old now, (s.edited edits).Saved d.store
      ((s.edited edits).submit e w).desk.store
      ((s.edited edits).submit e w).session old now := by
  obtain ⟨form, hedited, hstatuses, hfeedbacks⟩ := edited_frame s edits
  rw [hedited] at hok ⊢
  exact saved_of_submit_form hmount hsound hstatuses hfeedbacks hclient hstore hclock hok

end Session

end ReviewQueue
