import ReviewQueue.Proofs.Remote.Listing
import ReviewQueue.Proofs.Review.Saved

/-!
# Sessions at a service

A session that is mounted through a client at the origin of a service shows the stored submission,
and its save succeeds when the gate is open and nothing is wrong with its update.

* `Session.mount_served`, `Session.get_of_mount` — which session a mount gives, and of what;
* `Session.exists_mount_served` — when there is one;
* `Session.submit_served` — when a save succeeds.
-/

namespace ReviewQueue.Session

open Http Server

/-- The paths of a session on a submission. -/
def Paths.ofNames (project batch id : String) : Paths :=
  ⟨Endpoint.detailPath id, Endpoint.listPath project batch, Endpoint.attachmentsPath id⟩

theorem paths_of_names {p : SessionParams} (hproject : IsName p.projectId)
    (hbatch : IsName p.batchId) (hid : IsName p.submissionId) :
    Paths.of p = .ok (.ofNames p.projectId p.batchId p.submissionId) := by
  simp only [Paths.of, Endpoint.detail_of_name hid, Endpoint.list_of_names hproject hbatch,
    Endpoint.attachments_of_name hid]
  rfl

section Served

variable {d d' w : Desk (Wire RunningService)} {p : SessionParams} {s : Session} {e : Executor}
  {id : Int} {old : Submission}

/-- A session that was mounted shows the stored submission. -/
theorem mount_served (hmount : Session.mount d p = (d', .ok s))
    (hclient : d.remote.client.AtOrigin) (hsound : d.store.Sound)
    (hproject : IsName p.projectId) (hbatch : IsName p.batchId)
    (hid : p.submissionId = Text.ofInt id)
    (hget : d.store.get id = .ok old) :
    let paths := Paths.ofNames p.projectId p.batchId p.submissionId
    let resolved := Siblings.resolve ((d.prefetch paths.attachments).get paths.detail).1
      (if p.listKey = "" then paths.list else p.listKey) paths.list
    d' = resolved.1 ∧ s = start p paths old.compacted resolved.2.1 resolved.2.2 := by
  have hname : IsName p.submissionId := hid ▸ isName_ofInt id
  obtain ⟨paths, data, loaded, hpaths, hfetch, hloaded, hd, hs⟩ := mount_eq_ok hmount
  obtain rfl := Except.ok.inj (hpaths.symm.trans (paths_of_names hproject hbatch hname))
  have hread : (Remote.fetch d.remote (Endpoint.detailPath p.submissionId)).2 =
      .ok (some old.body) := by
    rw [hid]
    exact hclient.send_detail d.remote.peer hsound hget
  obtain rfl := Except.ok.inj (hread.symm.trans hfetch)
  obtain ⟨-, -, rfl⟩ := Submission.shown_of_decode (hsound.portable hget) hloaded
  refine ⟨hd, hs.trans ?_⟩
  rw [sort_compacted hget]

/-- A session is mounted only on a submission that can be read. -/
theorem get_of_mount (hmount : Session.mount d p = (d', .ok s))
    (hclient : d.remote.client.AtOrigin) (hproject : IsName p.projectId)
    (hbatch : IsName p.batchId) (hid : p.submissionId = Text.ofInt id) (hpos : 0 < id)
    (hfits : fitsWord id = true) : ∃ old, d.store.get id = .ok old := by
  have hname : IsName p.submissionId := hid ▸ isName_ofInt id
  obtain ⟨paths, data, loaded, hpaths, hfetch, -⟩ := mount_eq_ok hmount
  obtain rfl := Except.ok.inj (hpaths.symm.trans (paths_of_names hproject hbatch hname))
  simp only [Paths.ofNames, hid] at hfetch
  exact hclient.get_of_send_detail d.remote.peer hpos hfits hfetch

/-- A submission that can be shown can be mounted. -/
theorem exists_mount_served (hclient : d.remote.client.AtOrigin)
    (hsound : d.store.Sound) (hproject : IsName p.projectId)
    (hbatch : IsName p.batchId) (hid : p.submissionId = Text.ofInt id)
    (hget : d.store.get id = .ok old) {t : List Char}
    (hjson : old.json? = some t) (hraws : old.RawsWithin (Json.maxHeight - 1)) :
    ∃ d' s, Session.mount d p = (d', .ok s) := by
  have hname : IsName p.submissionId := hid ▸ isName_ofInt id
  have hread : (Remote.fetch d.remote (Endpoint.detailPath p.submissionId)).2 =
      .ok (some old.body) := by
    rw [hid]
    exact hclient.send_detail d.remote.peer hsound hget
  obtain ⟨d', siblings, error, hmount⟩ := mount_of_fetched
    (paths_of_names hproject hbatch hname) hread
    (Submission.decode_body (hsound.portable hget) hraws hjson)
  exact ⟨d', _, hmount⟩

/-- A save succeeds when the gate is open and nothing is wrong with the update. -/
theorem submit_served (hclient : w.remote.client.AtOrigin)
    (hclock : w.remote.peer.clock.Sound) (hsound : w.store.Sound)
    (hget : w.store.get id = .ok old)
    (hpath : s.coordinator.detailPath = Endpoint.detailPath (Text.ofInt id))
    (hshown : s.submission = old.compacted) (hmode : s.mode = Mode.of old)
    (hgate : s.canSubmit e = true)
    (hjudged : Problem.find old (s.form.verdict s.mode old) = []) :
    (s.submit e w).result = .ok () := by
  obtain ⟨-, r, hrow, -⟩ := Store.get_eq_ok_iff.mp hget
  obtain ⟨hmem, rfl⟩ := Store.row?_eq_some hrow
  have hr := hsound.rows r hmem
  -- the update is decoded as it was made
  have hdecoded : Json.decodeFirst? {} Verdict.fill
      (String.ofList (s.form.verdict s.mode s.submission).json).toList =
        some (s.form.verdict s.mode old) := by
    have hprints := (Verdict.prints
      (Form.verdict_portable (hsound.portable hget) s.form s.mode)).decodeFirst (by decide)
    rw [hmode, Form.trimmed_verdict, ← hmode] at hprints
    rw [String.toList_ofList, hshown]
    exact hprints
  have hid := readId_of_names (names_ofInt hr.positive hr.id)
  have hstatus : (answerReview w.remote.peer.service w.remote.peer.clock.now _ _).2.status = 200 :=
    (answerReview_of_no_problem ⟨_, hclock _⟩ hid hdecoded hget hjudged).2.2
  have hput : "PUT" ∈ Resource.methods (.submission (Text.toBytes (Text.ofInt r.id).toList)) :=
    by simp [Resource.methods]
  obtain ⟨-, -, houtcome⟩ := Client.send_of_reaches
    (hclient.reaches_detail (isName_ofInt r.id)) (.inr rfl) hput w.remote.peer
    (some (.ofList (s.form.verdict s.mode s.submission).json))
  simp only [answerResource, if_true, Option.getD_some, hstatus] at houtcome
  rw [if_pos (by decide), ← hpath] at houtcome
  have hsent := Client.eq_ok_of_toOption houtcome
  exact result_of_sent hgate (Prod.ext rfl hsent)

end Served
end ReviewQueue.Session
