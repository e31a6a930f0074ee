import ReviewQueue.Proofs.Review.Arrival
import ReviewQueue.Proofs.Review.Asked
import ReviewQueue.Proofs.Review.Recorded
import ReviewQueue.Proofs.Store.Listed

/-!
# Room for the feedback on parts

The form of a session is made for the submission that is loaded, with a verdict and a feedback for
every part. Nothing that is done to the form changes its length. A save that succeeds puts the
submission that comes back in the place of the loaded one, and leaves the form as it is; so whether
there still is a feedback for every part depends on who answers. The review service answers with the
submission that is stored, and that keeps its parts as long as it is there.

* `Session.InReview` — the sessions of a review, saved by anybody;
* `Session.Unsaved.fits` — up to a save the form fits the submission;
* `Session.AtService.tracks` — at the review service it does so after any saves.
-/

namespace ReviewQueue

open Reviewer

namespace Session

/-! ## What is done to a session -/

/-- What a review does to a session short of saving it: an edit, a verdict that is given beforehand,
the prompts, a draft, and a save that fails. -/
inductive Handled (s : Session) : Session → Prop
  | edited (e : Edit) : Handled s (s.edit e)
  | given {t : Session} {request : ReviewRequest} (applied : applyVerdict request s = .ok t) :
      Handled s t
  | judged {ω : Type} {t : Session} {options : List Status} {r r' : Reviewer ω}
      (asked : (askVerdicts options s).run.run r = (.ok t, r')) : Handled s t
  | drafted {t : Session} {drafter : Option Drafter} (filled : draftMissing drafter s = .ok t) :
      Handled s t
  | answered {ω : Type} {t : Session} {r r' : Reviewer ω}
      (asked : (askFeedback s).run.run r = (.ok t, r')) : Handled s t
  | unsaved {ω : Type} [Remote ω] {e : Executor} {d : Desk ω}
      (failed : (s.submit e d).result ≠ .ok ()) : Handled s (s.submit e d).session

/-- The sessions of a review: one that is loaded, and what becomes of it when it is handled and
saved, whoever answers. -/
inductive InReview : Session → Prop
  | loaded {ω : Type} [Remote ω] {d d' : Desk ω} {p : SessionParams} {s : Session}
      (mounted : Session.mount d p = (d', .ok s)) : InReview s
  | handled {s t : Session} (before : InReview s) (step : s.Handled t) : InReview t
  | saved {ω : Type} [Remote ω] {s : Session} {e : Executor} {d : Desk ω} (before : InReview s)
      (ok : (s.submit e d).result = .ok ()) : InReview (s.submit e d).session

/-- Those of them for which no save has succeeded yet. -/
inductive Unsaved : Session → Prop
  | loaded {ω : Type} [Remote ω] {d d' : Desk ω} {p : SessionParams} {s : Session}
      (mounted : Session.mount d p = (d', .ok s)) : Unsaved s
  | handled {s t : Session} (before : Unsaved s) (step : s.Handled t) : Unsaved t

/-- Those that are loaded from the review service and saved there, each with the store as it is by
now. Before and after everything that is done to the session, others may do to the store whatever
they like. -/
inductive AtService (c : Client) : Store → Session → Prop
  | loaded {d d' : Desk (Wire RunningService)} {p : SessionParams} {s : Session}
      (client : d.remote.client = c) (sound : d.store.Sound) (bounded : d.store.Bounded)
      (mounted : Session.mount d p = (d', .ok s)) : AtService c d.store s
  | handled {store : Store} {s t : Session} (before : AtService c store s) (step : s.Handled t) :
      AtService c store t
  | meanwhile {store after : Store} {s : Session} (before : AtService c store s)
      (later : store.Later after) : AtService c after s
  | saved {d : Desk (Wire RunningService)} {s : Session} {e : Executor}
      (before : AtService c d.store s) (client : d.remote.client = c) (sound : d.store.Sound)
      (clock : d.remote.peer.clock.Sound) (ok : (s.submit e d).result = .ok ()) :
      AtService c (s.submit e d).desk.store (s.submit e d).session

/-! ## Forms that fit -/

/-- A session whose form has been changed, and is as long as it was. -/
def Refilled (s t : Session) : Prop :=
  ∃ form, t = { s with form } ∧ form.partsStatus.length = s.form.partsStatus.length ∧
    form.partsFeedback.length = s.form.partsFeedback.length

/-- There is a feedback for every part that is shown. -/
def HasRoom (s : Session) : Prop :=
  s.mode = .parts → s.submission.partList.length ≤ s.form.partsFeedback.length

/-- A session with as many verdicts on parts as feedbacks. -/
def Even (s : Session) : Prop := s.form.partsFeedback.length = s.form.partsStatus.length

/-- A session whose form fits its submission: in parts mode it has a verdict and a feedback for
every part. -/
structure Fits (s : Session) : Prop where
  mode : s.mode = Mode.of s.submission
  even : s.Even
  full : s.mode = .parts → s.form.partsStatus.length = s.submission.partList.length

theorem Even.refilled {s t : Session} (h : s.Even) (hrefilled : s.Refilled t) : t.Even := by
  obtain ⟨form, rfl, hstatuses, hfeedbacks⟩ := hrefilled
  exact hfeedbacks.trans (h.trans hstatuses.symm)

theorem Fits.refilled {s t : Session} (h : s.Fits) (hrefilled : s.Refilled t) : t.Fits := by
  have heven := h.even.refilled hrefilled
  obtain ⟨form, rfl, hstatuses, -⟩ := hrefilled
  exact ⟨h.mode, heven, fun hmode => hstatuses.trans (h.full hmode)⟩

/-- The form fits any submission with as many parts. -/
theorem Fits.of_length {s : Session} (h : s.Fits) {submission : Submission}
    (hlength : submission.partList.length = s.submission.partList.length) :
    ({ s with submission } : Session).Fits where
  mode := by
    have hparts : submission.hasParts = s.submission.hasParts := by
      rw [Bool.eq_iff_iff]
      simp [Submission.hasParts, ← List.length_eq_zero_iff, hlength]
    rw [h.mode, Mode.of, Mode.of, hparts]
  even := h.even
  full hmode := (h.full hmode).trans hlength.symm

theorem Fits.hasRoom {s : Session} (h : s.Fits) : s.HasRoom := fun hmode =>
  (h.even.trans (h.full hmode)).ge

theorem fits_of_mount [Remote ω] {d d' : Desk ω} {p : SessionParams} {s : Session}
    (h : Session.mount d p = (d', .ok s)) : s.Fits := by
  have heven := aligned_of_mount h
  obtain ⟨paths, data, loaded, -, -, -, -, rfl⟩ := mount_eq_ok h
  exact ⟨rfl, heven, fun hmode => (aligned_ofSubmission _ hmode).1⟩

end Session

namespace Reviewer

variable {P : Desk ω → Executor → Prop}

/-- The verdicts that are asked for are as many as there were. -/
theorem length_askStatuses (options : List Status) (parts : List Part) (statuses : List Status) :
    Leads (ω := ω) P P (fun asked => asked.length = statuses.length)
      (askStatuses options parts statuses) := by
  induction parts generalizing statuses with
  | nil => exact .pure rfl
  | cons p parts ih =>
      cases statuses with
      | nil => exact .pure rfl
      | cons st rest =>
          refine .bind (leads_askStatus _ _ _) fun st _ => .bind (ih rest) fun asked hasked => ?_
          exact .pure (congrArg (· + 1) hasked)

/-- The feedback that is asked for is as much as there was. -/
theorem length_askFeedbacks (parts : List Part) (statuses : List Status)
    (feedbacks : List String) :
    Leads (ω := ω) P P (fun asked => asked.length = feedbacks.length)
      (askFeedbacks parts statuses feedbacks) := by
  induction parts generalizing statuses feedbacks with
  | nil => exact .pure rfl
  | cons p parts ih =>
      cases statuses with
      | nil => exact .pure rfl
      | cons st statuses =>
          cases feedbacks with
          | nil => exact .pure rfl
          | cons f rest =>
              refine .bind (.ask _) fun f _ => .bind (ih statuses rest) fun asked hasked => ?_
              exact .pure (congrArg (· + 1) hasked)

theorem refilled_askVerdicts (options : List Status) (s : Session) :
    Leads (ω := ω) P P s.Refilled (askVerdicts options s) := by
  unfold askVerdicts
  split
  · exact .bind (leads_askStatus _ _ _) fun _ _ => .pure ⟨_, rfl, rfl, rfl⟩
  · exact .bind (length_askStatuses _ _ _) fun asked hasked => .pure ⟨_, rfl, hasked, rfl⟩

theorem refilled_askFeedback (s : Session) : Leads (ω := ω) P P s.Refilled (askFeedback s) := by
  unfold askFeedback
  split
  · exact .bind (.ask _) fun _ _ => .pure ⟨_, rfl, rfl, rfl⟩
  · exact .bind (length_askFeedbacks _ _ _) fun asked hasked => .pure ⟨_, rfl, rfl, hasked⟩

end Reviewer

namespace Session

/-- Short of a save that succeeds, the form changes and stays as long as it is. -/
theorem Handled.refilled {s t : Session} (h : s.Handled t) (heven : s.Even) : s.Refilled t := by
  cases h with
  | edited e => exact edit_frame s e
  | given applied =>
      obtain ⟨form, rfl, hstatuses, hfeedbacks, -⟩ := applyVerdict_eq_ok heven applied
      exact ⟨form, rfl, hstatuses, hfeedbacks⟩
  | @judged ω _ options r r' asked =>
      have hleads : Leads (ω := ω) (fun _ _ => True) (fun _ _ => True) s.Refilled
          (askVerdicts options s) := refilled_askVerdicts options s
      exact (hleads r trivial).2 t (congrArg Prod.fst asked)
  | drafted filled =>
      obtain ⟨form, rfl, hstatuses, hfeedbacks, -⟩ := draftMissing_eq_ok filled
      exact ⟨form, rfl, congrArg List.length hstatuses, hfeedbacks⟩
  | @answered ω _ r r' asked =>
      have hleads : Leads (ω := ω) (fun _ _ => True) (fun _ _ => True) s.Refilled
          (askFeedback s) := refilled_askFeedback s
      exact (hleads r trivial).2 t (congrArg Prod.fst asked)
  | unsaved failed =>
      rw [submit_session failed]
      exact ⟨s.form, rfl, rfl, rfl⟩

/-- Whatever is done to a session, it has as many verdicts on parts as feedbacks. -/
theorem InReview.even {s : Session} (h : s.InReview) : s.Even := by
  induction h with
  | loaded mounted => exact (fits_of_mount mounted).even
  | handled _ step ih => exact ih.refilled (step.refilled ih)
  | @saved ω _ s e d _ _ ih =>
      obtain ⟨submission, hsubmit⟩ := submit_frame s e d
      rw [hsubmit]
      exact ih

/-- Up to a save that succeeds, the form fits the submission. -/
theorem Unsaved.fits {s : Session} (h : s.Unsaved) : s.Fits := by
  induction h with
  | loaded mounted => exact fits_of_mount mounted
  | handled _ step ih => exact ih.refilled (step.refilled ih.even)

/-! ## At the review service -/

/-- A session whose form fits its submission, and which shows as many parts as are stored at its
path, as long as there is something. -/
structure Tracks (c : Client) (store : Store) (s : Session) : Prop where
  fits : s.Fits
  stored : ∀ id, c.Finds s.coordinator.detailPath id → store.isOpen = true ∧ id ≤ store.lastId ∧
    ((store.row? id).isSome → (store.partsOf id).length = s.submission.partList.length)

variable {c : Client} {store after : Store} {s t : Session}

theorem length_compacted {id : Int} {old : Submission} (hget : store.get id = .ok old) :
    old.compacted.partList.length = (store.partsOf id).length := by
  obtain ⟨-, r, -, -, rfl⟩ := Store.get_eq_ok_iff.mp hget
  rfl

theorem Tracks.loaded {d d' : Desk (Wire RunningService)} {p : SessionParams}
    (hsound : d.store.Sound) (hbounded : d.store.Bounded)
    (hmount : Session.mount d p = (d', .ok s)) : s.Tracks d.remote.client d.store where
  fits := fits_of_mount hmount
  stored id hfinds := by
    obtain ⟨peer, data, loaded, hread, hloaded, hsubmission, -, -⟩ := read_of_mount hmount
    obtain ⟨old, hget, rfl⟩ := Client.read_of_finds hfinds hread
    obtain ⟨-, -, rfl⟩ := Submission.shown_of_decode (hsound.portable hget) hloaded
    refine ⟨(Store.get_eq_ok_iff.mp hget).1, hbounded.id_le hget, fun _ => ?_⟩
    rw [hsubmission, sort_compacted hget]
    exact (length_compacted hget).symm

theorem Tracks.handled (h : s.Tracks c store) (hstep : s.Handled t) : t.Tracks c store := by
  have hrefilled := hstep.refilled h.fits.even
  refine ⟨h.fits.refilled hrefilled, ?_⟩
  obtain ⟨form, rfl, -, -⟩ := hrefilled
  exact h.stored

/-- Whatever others do, what is stored keeps its parts, and nothing else takes over its id. -/
theorem Tracks.meanwhile (h : s.Tracks c store) (hlater : store.Later after) :
    s.Tracks c after where
  fits := h.fits
  stored id hfinds := by
    obtain ⟨hopen, hid, hparts⟩ := h.stored id hfinds
    have hcontinues := hlater.continues hopen
    refine ⟨hcontinues.isOpen.trans hopen, hid.trans hcontinues.lastId, fun hrow => ?_⟩
    obtain ⟨r, hr⟩ := Option.isSome_iff_exists.mp hrow
    obtain ⟨hmem, rfl⟩ := Store.row?_eq_some hr
    have hold : (store.row? r.id).isSome := by
      obtain hnew | ⟨old, hmem', hsame, -⟩ := hcontinues.rows r hmem
      · omega
      · exact List.find?_isSome.mpr ⟨old, hmem', by simpa using hsame⟩
    have hindexes := congrArg List.length (hcontinues.parts r hmem hid)
    rw [List.length_map, List.length_map] at hindexes
    exact hindexes.trans (hparts hold)

/-- The submission that comes back from a save at the service is the one that is stored. -/
theorem length_of_saved {clock : Clock} {data : Option String} {body : String} {id : Int}
    {v : Verdict} {old shown : Submission} {now : Moment}
    (hupdate : UpdateAccepted store after clock data body id v old now) (hsound : store.Sound)
    (hshown : Coordinator.saved? data = some shown) :
    shown.partList.length = (store.partsOf id).length := by
  have hget := Store.get_reviewed v now hupdate.found
  have helapsed := (Verdict.portable_of_decodeFirst hupdate.decoded).timeElapsed
  have hportable := (hsound.reviewed now id helapsed).portable hget
  rw [hupdate.saved] at hshown
  obtain ⟨read, hread, heq⟩ := Option.bind_eq_some_iff.mp hshown
  obtain ⟨-, -, rfl⟩ := Submission.shown_of_decode hportable hread
  rw [← Option.some.inj heq, sort_compacted hget, length_compacted hget, Store.partsOf_reviewed,
    List.length_map]

theorem Tracks.saved {d : Desk (Wire RunningService)} {e : Executor}
    (h : s.Tracks d.remote.client d.store) (hsound : d.store.Sound)
    (hclock : d.remote.peer.clock.Sound) (hok : (s.submit e d).result = .ok ()) :
    (s.submit e d).session.Tracks d.remote.client (s.submit e d).desk.store := by
  obtain ⟨-, remote, data, hwritten⟩ := submit_eq_ok hok
  have hput := put_of_written hwritten
  by_cases hreport : ∃ url, d.remote.client.landing? s.coordinator.detailPath = some url ∧
      Server.IsReport url.requestTarget
  · -- the path is the one of the report: nothing comes back, and no submission is found there
    obtain ⟨url, hlanding, hreport⟩ := hreport
    have hnone : Coordinator.saved? data = none := by
      cases hsaved : Coordinator.saved? data with
      | none => rfl
      | some shown =>
          obtain ⟨text, rfl, hbind⟩ := Option.bind_eq_some_iff.mp hsaved
          obtain ⟨read, hread, -⟩ := Option.bind_eq_some_iff.mp hbind
          exact absurd hreport (Client.not_isReport_of_decoded (.inr rfl) hput hread hlanding)
    have hsession : (s.submit e d).session = s := by rw [hwritten.session, hnone]
    rw [hsession]
    refine ⟨h.fits, fun id hfinds => ?_⟩
    obtain ⟨url', segment, hlanding', hresource, -⟩ := hfinds
    obtain rfl := Option.some.inj (hlanding.symm.trans hlanding')
    cases (Server.resource?_of_isReport hreport).symm.trans hresource
  · obtain ⟨id, v, old, now, hfinds, hupdate⟩ :=
      Client.write_accepted hput hclock fun hurl hreport' => hreport ⟨_, hurl, hreport'⟩
    obtain ⟨hopen, hid, hparts⟩ := h.stored id hfinds
    have hrow : (d.store.row? id).isSome := by
      obtain ⟨-, r, hr, -⟩ := Store.get_eq_ok_iff.mp hupdate.found
      rw [hr]
      rfl
    have hsame := hparts hrow
    -- what comes back has as many parts as what was shown
    have hback : ∃ submission, (s.submit e d).session = { s with submission } ∧
        submission.partList.length = s.submission.partList.length := by
      rw [hwritten.session]
      cases hsaved : Coordinator.saved? data with
      | none => exact ⟨s.submission, rfl, rfl⟩
      | some shown => exact ⟨shown, rfl, (length_of_saved hupdate hsound hsaved).trans hsame⟩
    obtain ⟨submission, hsession, hlength⟩ := hback
    have hafter : (s.submit e d).desk.store = d.store.reviewed now id v := hupdate.written
    rw [hsession, hafter]
    refine ⟨h.fits.of_length hlength, fun other hother => ?_⟩
    obtain rfl := hfinds.unique hother
    refine ⟨hopen, hid, fun _ => ?_⟩
    rw [Store.partsOf_reviewed, List.length_map, hsame, hlength]

/-- **At the review service the form fits the submission**, however often it was saved, and whatever
else became of the store. -/
theorem AtService.tracks (h : s.AtService c store) : s.Tracks c store := by
  induction h with
  | loaded client sound bounded mounted => exact client ▸ .loaded sound bounded mounted
  | handled _ step ih => exact ih.handled step
  | meanwhile _ later ih => exact ih.meanwhile later
  | saved _ client sound clock ok ih =>
      subst client
      exact ih.saved sound clock ok

end Session

end ReviewQueue
