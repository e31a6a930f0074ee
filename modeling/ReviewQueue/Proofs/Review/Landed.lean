import ReviewQueue.Proofs.Review.Served

/-!
# A verdict lands on the right parts

A reviewer sees the parts of a submission in the order of their indexes, and gives verdicts by
position. The verdicts travel by index: through the update, its JSON form, the service and the
tables. `verdict_lands` says that a session which was loaded through a client, edited in any way and
saved leaves exactly its form in the store, part by part, and nothing else.

* `Part.map_decided` — verdicts that were made by position are decided by position;
* `Session.Saved.landed` — what a save left in the store;
* `verdict_lands` — the whole way.
-/

namespace ReviewQueue

/-! ## By position and by index -/

namespace Part

theorem decided_cons_of_ne {d : PartVerdict} {p : Part} (h : d.index ≠ p.index)
    (rest : List PartVerdict) : p.decided (d :: rest) = p.decided rest := by
  unfold decided
  rw [Store.lastFor?_cons, if_neg h, Option.or_none]

theorem decided_cons_self {d : PartVerdict} {p : Part} (h : d.index = p.index)
    {rest : List PartVerdict} (hrest : p.index ∉ rest.map PartVerdict.index) :
    p.decided (d :: rest) = ⟨p.index, d.status, d.feedback⟩ := by
  unfold decided
  rw [Store.lastFor?_cons, Store.lastFor?_of_not_mem hrest, if_pos h]
  rfl

/-- Verdicts that were made by position are decided by position, when no index is there twice. -/
theorem map_decided (id : Int) {parts : List Part} {statuses : List Status}
    {feedbacks : List String} (hnodup : (parts.map Part.index).Nodup)
    (hstatuses : statuses.length = parts.length) (hfeedbacks : feedbacks.length = parts.length) :
    (parts.map (Part.decided (Form.partVerdicts id parts statuses feedbacks))).map Part.status =
        statuses ∧
      (parts.map (Part.decided (Form.partVerdicts id parts statuses feedbacks))).map
        Part.feedback = feedbacks := by
  induction parts generalizing statuses feedbacks with
  | nil =>
      rw [List.length_nil, List.length_eq_zero_iff] at hstatuses hfeedbacks
      rw [hstatuses, hfeedbacks]
      exact ⟨rfl, rfl⟩
  | cons p parts ih =>
      obtain ⟨status, statuses, rfl⟩ := List.exists_cons_of_length_eq_add_one hstatuses
      obtain ⟨feedback, feedbacks, rfl⟩ := List.exists_cons_of_length_eq_add_one hfeedbacks
      obtain ⟨hnot, hrest⟩ := List.nodup_cons.mp hnodup
      obtain ⟨ihs, ihf⟩ := ih hrest (by simpa using hstatuses) (by simpa using hfeedbacks)
      let d : PartVerdict := ⟨id, p.index, status, feedback⟩
      let rest := Form.partVerdicts id parts statuses feedbacks
      -- the first verdict is for the first part alone
      have hhead : p.decided (d :: rest) = ⟨p.index, status, feedback⟩ :=
        decided_cons_self rfl (by rw [Form.index_partVerdicts]; exact hnot)
      have htail : parts.map (Part.decided (d :: rest)) = parts.map (Part.decided rest) := by
        apply List.map_congr_left
        intro q hq
        refine decided_cons_of_ne ?_ rest
        rintro heq
        exact hnot (List.mem_map.mpr ⟨q, hq, heq.symm⟩)
      show ((p :: parts).map (Part.decided (d :: rest))).map Part.status = _ ∧
        ((p :: parts).map (Part.decided (d :: rest))).map Part.feedback = _
      rw [List.map_cons, hhead, htail]
      exact ⟨congrArg (status :: ·) ihs, congrArg (feedback :: ·) ihf⟩

end Part

/-- The status that follows from final verdicts on all parts. -/
theorem Status.ofParts_of_final {parts : List Part} (hne : parts ≠ [])
    (hfinal : ∀ st ∈ parts.map Part.status, st = .approved ∨ st = .rejected) :
    Status.ofParts parts =
      if Status.rejected ∈ parts.map Part.status then .rejected else .approved := by
  have hany : parts.any (·.status == .rejected) = true ↔
      Status.rejected ∈ parts.map Part.status := by
    simp
  unfold Status.ofParts
  rw [if_neg (by simpa using hne)]
  by_cases hrejected : Status.rejected ∈ parts.map Part.status
  · rw [if_pos (hany.mpr hrejected), if_pos hrejected]
  · have hall : parts.all (·.status == .approved) = true := by
      refine List.all_eq_true.mpr fun p hp => ?_
      rcases hfinal p.status (List.mem_map_of_mem hp) with h | h
      · simp [h]
      · exact absurd (h ▸ List.mem_map_of_mem hp) hrejected
    rw [if_neg (mt hany.mp hrejected), if_pos hall, if_neg hrejected]

theorem Form.final_of_partsReady {statuses : List Status} {feedbacks : List String}
    (h : partsReady statuses feedbacks = true) :
    ∀ st ∈ statuses, st = .approved ∨ st = .rejected := by
  induction statuses generalizing feedbacks with
  | nil => simp
  | cons status statuses ih =>
      simp only [partsReady, Bool.and_eq_true, Bool.or_eq_true, beq_iff_eq] at h
      exact List.forall_mem_cons.mpr ⟨h.1.imp id And.left, ih h.2⟩

/-! ## What a session leaves -/

namespace Session

variable {s : Session}

/-- What a session leaves in a store: before the save, the store holds the submission `old` for it,
and afterwards `new`. The parts are the same, and in the order of their indexes their verdicts and
feedbacks are those of the form. -/
structure Landed (s : Session) (before after : Store) (result : Session) (old new : Submission) :
    Prop where
  found : before.get s.submission.id = .ok old
  stored : after.get s.submission.id = .ok new
  ascending : (s.submission.partList.map Part.index).Pairwise (· < ·)
  indexes : new.partList.map Part.index = s.submission.partList.map Part.index
  statuses : s.mode = .parts → new.partList.map Part.status = s.form.partsStatus
  feedbacks : s.mode = .parts → new.partList.map Part.feedback = s.form.partsFeedback
  derived : s.mode = .parts →
    new.status = if .rejected ∈ s.form.partsStatus then .rejected else .approved
  whole : s.mode = .single → new.status = s.form.status ∧ new.feedback = s.form.feedback
  elapsed : new.timeElapsed = old.timeElapsed
  others : ∀ other, other ≠ s.submission.id → after.get other = before.get other
  shown : result.submission = new.compacted

theorem partList_reviewed (now : Timestamp) (v : Verdict) (s : Submission) :
    (s.reviewed now v).partList = s.partList.map (Part.decided v.partList) := rfl

theorem Saved.parts_landed {before after : Store} {result : Session} {old : Submission}
    {now : Moment} (h : s.Saved before after result old now)
    (hnodup : (old.partList.map Part.index).Nodup) (hparts : s.mode = .parts) :
    let new := old.reviewed now (s.form.verdict s.mode old)
    new.partList.map Part.status = s.form.partsStatus ∧
      new.partList.map Part.feedback = s.form.partsFeedback ∧
      new.status = if .rejected ∈ s.form.partsStatus then .rejected else .approved := by
  intro new
  obtain ⟨hstatuses, hfeedbacks⟩ := h.aligned (h.mode ▸ hparts)
  have hverdict : (s.form.verdict s.mode old).partList =
      Form.partVerdicts old.id old.partList s.form.partsStatus s.form.partsFeedback := by
    rw [hparts]
    rfl
  have hhas : old.hasParts = true := by
    have hmode := h.mode ▸ hparts
    unfold Mode.of at hmode
    split at hmode
    · assumption
    · cases hmode
  have hlist : new.partList = old.partList.map (Part.decided
      (Form.partVerdicts old.id old.partList s.form.partsStatus s.form.partsFeedback)) := by
    rw [partList_reviewed, hverdict]
  obtain ⟨hstatus, hfeedback⟩ := Part.map_decided old.id hnodup hstatuses hfeedbacks
  rw [← hlist] at hstatus hfeedback
  refine ⟨hstatus, hfeedback, ?_⟩
  -- the gate lets only final verdicts through
  have hready : Form.partsReady s.form.partsStatus s.form.partsFeedback = true := by
    have hgate := h.gate
    rw [hparts] at hgate
    simp only [Form.canSubmit, Bool.or_self, Bool.false_eq_true, if_false, Bool.and_eq_true]
      at hgate
    exact hgate.2
  have hne : new.partList ≠ [] := by
    rw [hlist, ne_eq, List.map_eq_nil_iff]
    simpa [Submission.hasParts] using hhas
  have hderived : new.status = Status.ofParts new.partList := by
    have hgiven : (s.form.verdict s.mode old).hasParts = true := by
      rw [h.mode, Form.hasParts_verdict, hhas]
    exact if_pos hgiven
  rw [hderived, Status.ofParts_of_final hne, hstatus]
  rw [hstatus]
  exact Form.final_of_partsReady hready

theorem Saved.whole_landed {before after : Store} {result : Session} {old : Submission}
    {now : Moment} (h : s.Saved before after result old now) (hwhole : s.mode = .single) :
    let new := old.reviewed now (s.form.verdict s.mode old)
    new.status = s.form.status ∧ new.feedback = s.form.feedback := by
  have hfeedback : s.form.feedback ≠ "" := by
    have hgate := h.gate
    rw [hwhole] at hgate
    simp only [Form.canSubmit, Bool.or_self, Bool.false_eq_true, if_false, Bool.and_eq_true,
      bne_iff_ne] at hgate
    exact hgate.2
  rw [hwhole]
  have hbrought : ¬ ((s.form.verdict .single old).hasParts = true ∨
      (s.form.verdict .single old).feedback = "") := by
    rintro (hparts | hempty)
    · cases hparts
    · exact hfeedback hempty
  exact ⟨rfl, if_neg hbrought⟩

theorem Saved.landed {before after : Store} {result : Session} {old : Submission} {now : Moment}
    (h : s.Saved before after result old now) (hsound : before.Sound) :
    s.Landed before after result old (old.reviewed now (s.form.verdict s.mode old)) := by
  have hlist : old.partList = before.partsOf s.submission.id := by
    obtain ⟨-, r, -, -, rfl⟩ := Store.get_eq_ok_iff.mp h.found
    rfl
  have hsame : s.submission.partList = old.partList := by
    rw [h.shown]
    rfl
  have hnodup : (old.partList.map Part.index).Nodup := by
    rw [hlist]
    exact hsound.nodup_indexes s.submission.id
  refine ⟨h.found, ?_, ?_, ?_, fun hparts => (h.parts_landed hnodup hparts).1,
    fun hparts => (h.parts_landed hnodup hparts).2.1,
    fun hparts => (h.parts_landed hnodup hparts).2.2, h.whole_landed, ?_, ?_, ?_⟩
  · rw [h.written]
    exact Store.get_reviewed _ now h.found
  · rw [hsame, hlist]
    exact hsound.ascending s.submission.id
  · rw [hsame, partList_reviewed, List.map_map]
    exact List.map_congr_left fun p _ => Part.decided_index _ p
  · cases s.mode <;> rfl
  · intro other hne
    rw [h.written]
    exact Store.get_reviewed_of_ne now _ hne
  · rw [h.result]

end Session

/-- **A submitted verdict lands on the right parts.** Let a session be mounted on a sound store,
through any client and cache, be edited by any calls, and be submitted with success while the store
is as it was. Then the store holds the form: position by position on the parts, which the session
shows in ascending order of their indexes, with the status that follows from them, or as a whole on
a submission without parts. The time spent and all other submissions stay, and the session shows
what is stored, with raw fields in compact form. -/
theorem verdict_lands (d d' w : Desk (Wire RunningService)) (p : SessionParams) (s : Session)
    (hmount : Session.mount d p = (d', .ok s)) (hsound : d.store.Sound)
    (edits : List Session.Edit) (e : Executor) (hclient : w.remote.client = d.remote.client)
    (hstore : w.store = d.store)
    (hclock : w.remote.peer.clock.Sound) (hok : ((s.edited edits).submit e w).result = .ok ()) :
    ∃ old new, (s.edited edits).Landed d.store
      ((s.edited edits).submit e w).desk.store
      ((s.edited edits).submit e w).session old new := by
  obtain ⟨old, now, hsaved⟩ :=
    Session.saved_of_submit hmount hsound edits hclient hstore hclock hok
  exact ⟨old, _, hsaved.landed hsound⟩

/-! ## A review of two parts -/

/-- A submission of two parts, whose instructions are not in compact form. -/
def Submission.twoParts : Submission :=
  { id := 1
    projectId := "p"
    batchId := "b"
    timeElapsed := 60
    instructions := "\x7b \"a\": 1 \x7d"
    parts := some [{ index := -2 }, { index := 7 }] }

/-- A store with that submission, whose parts were stored out of order, and another one. -/
def Store.twoParts : Store :=
  { lastId := 2
    submissions := [.ofSubmission .twoParts, .ofSubmission { id := 2 }]
    parts := [⟨1, 7, none, none⟩, ⟨1, -2, none, none⟩] }

/-- A desk at a service with that store. -/
def Desk.atTwoParts : Desk (Wire RunningService) :=
  { remote :=
      { client := ⟨"http://localhost:8080"⟩
        peer := ⟨{ store := .twoParts }, { time := fun _ => .zero, id := fun _ => "" }⟩ } }

/-- The parameters of a session on that submission. -/
def SessionParams.twoParts : SessionParams :=
  { projectId := "p", batchId := "b", submissionId := Text.ofInt 1 }

/-- A review that rejects the first part, approves one that is not there, and the second part. -/
def Session.twoEdits : List Session.Edit :=
  [.part 0 .rejected "no", .part 2 .approved "", .part 1 .approved "yes"]

theorem Submission.twoParts_within : Submission.twoParts.RawsWithin (Json.maxHeight - 1) := by
  have hread : (Json.read Submission.twoParts.instructions.toList).any
      (fun v => decide (v.height ≤ Json.maxHeight - 1)) = true := by
    decide +kernel
  obtain ⟨v, hv, hheight⟩ := Option.any_eq_true _ _ |>.mp hread
  exact ⟨isRawWithin_of_read hv (of_decide_eq_true hheight), .inl rfl, .inl rfl, .inl rfl⟩

theorem Store.twoParts_sound : Store.twoParts.Sound := by
  refine ⟨by decide, by decide, ?_, by decide⟩
  simp only [Store.twoParts, List.forall_mem_cons, List.not_mem_nil, false_implies, implies_true,
    and_true]
  exact ⟨⟨by decide, by decide, by decide⟩, ⟨by decide, by decide, by decide⟩⟩

theorem Store.twoParts_get : Store.twoParts.get 1 = .ok .twoParts := by
  have hparts : Store.twoParts.partsOf 1 = [{ index := -2 }, { index := 7 }] := by
    simp [Store.partsOf, Store.twoParts, PartRow.part, Column.text, Part.sort, List.mergeSort,
      List.MergeSort.Internal.splitInTwo, Status.none]
  refine Store.get_eq_ok_iff.mpr ⟨rfl, .ofSubmission .twoParts, rfl,
    SubmissionRow.readable_ofSubmission (by decide) (by decide), ?_⟩
  rw [hparts]
  decide +kernel

theorem verdict_lands_on_twoParts :
    ∃ d' s new, Session.mount .atTwoParts .twoParts = (d', .ok s) ∧
      ((s.edited Session.twoEdits).submit {} d').result = .ok () ∧
      ((s.edited Session.twoEdits).submit {} d').desk.store.get 1 = .ok new ∧
      new.partList.map Part.index = [-2, 7] ∧
      new.partList.map Part.status = [.rejected, .approved] ∧
      new.partList.map Part.feedback = ["no", "yes"] ∧ new.status = .rejected := by
  have hsound : Desk.atTwoParts.store.Sound := Store.twoParts_sound
  have hget : Desk.atTwoParts.store.get 1 = .ok .twoParts :=
    Store.twoParts_get
  have hname : IsName "p" ∧ IsName "b" := by decide
  obtain ⟨t, ht⟩ : ∃ t, Submission.twoParts.json? = some t :=
    Option.isSome_iff_exists.mp (by decide +kernel)
  obtain ⟨d', s, hmount⟩ := Session.exists_mount_served (p := .twoParts)
    Client.atOrigin_localhost hsound hname.1 hname.2 rfl hget ht
    Submission.twoParts_within
  obtain ⟨-, hs⟩ := Session.mount_served hmount Client.atOrigin_localhost hsound hname.1 hname.2
    rfl hget
  have hsame := (Session.browsed_of_mount hmount).same
  have hclock : Desk.atTwoParts.remote.peer.clock.Sound := fun _ => Timestamp.isKept_zero
  have hok : ((s.edited Session.twoEdits).submit {} d').result = .ok () := by
    have hget' : d'.store.get 1 = .ok .twoParts := by rw [hsame.store, hget]
    refine Session.submit_served ?_ ?_ ?_ hget' ?_ ?_ ?_ ?_ ?_
    · rw [hsame.client]
      exact Client.atOrigin_localhost
    · exact hclock.of_time hsame.peer.time
    · rw [hsame.store]
      exact hsound
    · rw [hs]
      rfl
    · rw [hs]
      rfl
    · rw [hs]
      rfl
    · rw [hs]
      decide +kernel
    · rw [hs]
      decide +kernel
  obtain ⟨old, new, hlanded⟩ := verdict_lands .atTwoParts d' d' .twoParts s hmount hsound
    Session.twoEdits {} hsame.client hsame.store (hclock.of_time hsame.peer.time) hok
  have hid : (s.edited Session.twoEdits).submission.id = 1 := by rw [hs]; rfl
  have hmode : (s.edited Session.twoEdits).mode = .parts := by rw [hs]; rfl
  have hstatuses : (s.edited Session.twoEdits).form.partsStatus = [.rejected, .approved] := by
    rw [hs]
    decide +kernel
  have hfeedbacks : (s.edited Session.twoEdits).form.partsFeedback = ["no", "yes"] := by
    rw [hs]
    decide +kernel
  have hindexes : (s.edited Session.twoEdits).submission.partList.map Part.index = [-2, 7] := by
    rw [hs]
    rfl
  exact ⟨d', s, new, hmount, hok, hid ▸ hlanded.stored, hlanded.indexes.trans hindexes,
    (hlanded.statuses hmode).trans hstatuses, (hlanded.feedbacks hmode).trans hfeedbacks,
    (hlanded.derived hmode).trans (by rw [hstatuses]; rfl)⟩

end ReviewQueue
