import ReviewQueue.Proofs.Review.Request
import ReviewQueue.Proofs.Store.Operations

/-!
# Review requests among other traffic

Between the two steps of a review request anything may happen to the store: other requests take
their steps, submissions come and go, files are attached. `Traffic.step` is one such step, and
`judged_then_written` says that a request with which nothing was wrong is written in full, to the
submission that it was judged against, unless that was deleted in the meantime; then it is answered
as not found and changes nothing.

Two facts carry it, and both are about every step. No step but a delete changes what a submission
is apart from the verdicts on it (`Change.workOf_eq`), and an id that is gone does not come back
(`Change.stays_gone`).
-/

namespace ReviewQueue

/-! ## What reviews leave alone -/

/-- A submission without the verdicts on it and without what else a review writes. -/
def Submission.work (s : Submission) : Submission :=
  { s with
    status := .none
    feedback := ""
    parts := some (s.partList.map fun p => { index := p.index })
    timeElapsed := 0
    updatedAt := .zero }

theorem Submission.work_reviewed (now : Timestamp) (v : Verdict) (s : Submission) :
    (s.reviewed now v).work = s.work := by
  simp [Submission.work, Submission.reviewed, Submission.partList, Function.comp_def]

/-- Judging only looks at the work. -/
theorem Problem.find_of_work_eq {s t : Submission} (h : s.work = t.work) (v : Verdict) :
    Problem.find s v = Problem.find t v := by
  have hid : s.id = t.id := by
    simpa [Submission.work] using congrArg Submission.id h
  have hparts := congrArg (fun w : Submission => w.partList.map Part.index) h
  have hindexes : s.partList.map Part.index = t.partList.map Part.index := by
    simpa [Submission.work, Submission.partList, Function.comp_def] using hparts
  exact Problem.find_congr hid hindexes v

/-- What a read shows of a submission, without verdicts. -/
def Store.workOf (store : Store) (id : Int) : Except StoreError Submission :=
  (store.get id).map Submission.work

theorem Store.workOf_eq_ok_iff {store : Store} {id : Int} {w : Submission} :
    store.workOf id = .ok w ↔ ∃ s, store.get id = .ok s ∧ s.work = w := by
  unfold Store.workOf
  cases store.get id <;> simp [Except.map]

/-! ## The steps -/

/-- One step of the traffic on a store. -/
inductive Move where
  /-- A request comes in and is judged. -/
  | judge (request : VerdictRequest)
  /-- The request of a number is written; numbers are given in the order of judging. -/
  | write (number : Nat) (now : Moment)
  | create (now : Timestamp) (s : Submission)
  | delete (id : Int)
  | attach (now : Timestamp) (fresh : String) (a : Attachment)

/-- How far a request has come. -/
inductive Progress where
  | judged (t : Ticket)
  | answered (a : VerdictAnswer)

/-- A store and the review requests to it, by their numbers. -/
structure Traffic where
  store : Store := {}
  requests : List Progress := []

namespace Traffic

/-- The traffic after a step. A write of a request that has its answer does nothing, and a create,
delete or attachment that fails leaves all as it was. -/
def step (traffic : Traffic) : Move → Traffic
  | .judge request =>
    match request.judge traffic.store with
    | .error a => { traffic with requests := traffic.requests ++ [.answered a] }
    | .ok t => { traffic with requests := traffic.requests ++ [.judged t] }
  | .write number now =>
    match traffic.requests[number]? with
    | some (.judged t) =>
      let (store, a) := t.write traffic.store now
      { store, requests := traffic.requests.set number (.answered a) }
    | _ => traffic
  | .create now s =>
    match traffic.store.create now s with
    | .ok (store, _) => { traffic with store }
    | .error _ => traffic
  | .delete id =>
    match traffic.store.delete id with
    | .ok store => { traffic with store }
    | .error _ => traffic
  | .attach now fresh a =>
    match traffic.store.attach now fresh a with
    | .ok (store, _) => { traffic with store }
    | .error _ => traffic

/-- The traffic after steps, one after the other. -/
def run (traffic : Traffic) (moves : List Move) : Traffic := moves.foldl step traffic

end Traffic

/-- All that a step can do to a store. -/
inductive Change (store : Store) (m : Move) : Store → Prop
  | same : Change store m store
  | reviewed {id v} (now : Moment) :
      (store.row? id).isSome → Change store m (store.reviewed now id v)
  | created {now s after new} : store.Created now s after new → Change store m after
  | deleted {id after} : m = .delete id → store.Deleted id after → Change store m after
  | attached {new after} : store.Attached new after → Change store m after

theorem Ticket.write_change (t : Ticket) (store : Store) (now : Moment) (m : Move) :
    Change store m (t.write store now).1 := by
  unfold write
  obtain ⟨e, hreview, -⟩ | ⟨-, hrow, -, hreview⟩ := store.review_cases now t.id t.verdict
  · rw [hreview]
    exact .same
  · rw [hreview]
    cases (store.reviewed now t.id t.verdict).get t.id <;> exact .reviewed now hrow

theorem Traffic.step_change (traffic : Traffic) (m : Move) :
    Change traffic.store m (traffic.step m).store := by
  cases m with
  | judge request =>
      simp only [step]
      split <;> exact .same
  | write number now =>
      simp only [step]
      split
      · exact Ticket.write_change _ traffic.store now _
      · exact .same
  | create now s =>
      simp only [step]
      split
      · exact .created (Store.created_of_ok ‹_›)
      · exact .same
  | delete id =>
      simp only [step]
      split
      · exact .deleted rfl (Store.deleted_of_ok ‹_›)
      · exact .same
  | attach now fresh a =>
      simp only [step]
      split
      · exact .attached (Store.attached_of_ok ‹_›)
      · exact .same

/-! ## What every step keeps -/

/-- The invariant of the store: it is open, and every id in use was handed out. -/
structure Store.Live (store : Store) : Prop where
  isOpen : store.isOpen = true
  bounded : store.Bounded

namespace Change

variable {store after : Store} {m : Move}

theorem live (h : Change store m after) (hlive : store.Live) : after.Live := by
  cases h with
  | same => exact hlive
  | reviewed now _ => exact ⟨hlive.isOpen, hlive.bounded.reviewed _ _ _⟩
  | created hc => exact ⟨hc.stays, hlive.bounded.created hc⟩
  | deleted _ hd => exact ⟨hd.stays, hlive.bounded.deleted hd⟩
  | attached ha => exact ⟨ha.stays, hlive.bounded.attached ha⟩

/-- Ids are handed out in ascending order. -/
theorem lastId_le (h : Change store m after) : store.lastId ≤ after.lastId := by
  cases h with
  | same => exact Int.le_refl _
  | reviewed now _ => exact Int.le_refl _
  | created hc =>
      rw [hc.lastId]
      omega
  | deleted _ hd => exact Int.le_of_eq hd.lastId.symm
  | attached ha => exact Int.le_of_eq ha.lastId.symm

/-- **The work stays.** No step but its deletion changes what is there under an id that was handed
out, apart from verdicts. -/
theorem workOf_eq (h : Change store m after) {id : Int} (hid : id ≤ store.lastId)
    (hm : m ≠ .delete id) {work : Submission} (hwork : store.workOf id = .ok work) :
    after.workOf id = .ok work := by
  obtain ⟨s, hget, rfl⟩ := Store.workOf_eq_ok_iff.mp hwork
  rw [Store.workOf_eq_ok_iff]
  cases h with
  | same => exact ⟨s, hget, rfl⟩
  | @reviewed other v now hrow =>
      by_cases hother : id = other
      · -- a review of this very submission: it writes nothing that is work
        subst hother
        exact ⟨_, Store.get_reviewed v now hget, Submission.work_reviewed now v s⟩
      · exact ⟨s, (Store.get_reviewed_of_ne now v hother).trans hget, rfl⟩
  | created hc => exact ⟨s, (hc.get_of_ne (by omega)).trans hget, rfl⟩
  | @deleted other _ heq hd =>
      have hother : id ≠ other := by
        rintro rfl
        exact hm heq
      exact ⟨s, (hd.get_of_ne hother).trans hget, rfl⟩
  | attached ha => exact ⟨s, (ha.get_eq id).trans hget, rfl⟩

/-- A delete leaves nothing under its id. -/
theorem gone_of_deleted {id : Int} (hd : store.Deleted id after) :
    after.get id = .error (.noSubmission id) :=
  Store.get_eq_noSubmission_iff.mpr ⟨hd.stays, hd.row?_self⟩

/-- An id that is gone does not come back. -/
theorem stays_gone (h : Change store m after) {id : Int} (hid : id ≤ store.lastId)
    (hgone : store.get id = .error (.noSubmission id)) :
    after.get id = .error (.noSubmission id) := by
  cases h with
  | same => exact hgone
  | @reviewed other v now hrow =>
      have hother : id ≠ other := by
        rintro rfl
        rw [(Store.get_eq_noSubmission_iff.mp hgone).2] at hrow
        cases hrow
      rw [Store.get_reviewed_of_ne now v hother]
      exact hgone
  | created hc =>
      rw [hc.get_of_ne (by omega)]
      exact hgone
  | @deleted other _ _ hd =>
      by_cases hother : id = other
      · subst hother
        exact gone_of_deleted hd
      · rw [hd.get_of_ne hother]
        exact hgone
  | attached ha =>
      rw [ha.get_eq]
      exact hgone

end Change

namespace Traffic

/-- After a delete nothing is left under its id, whether there was something or not. -/
theorem step_delete_gone {traffic : Traffic} (hlive : traffic.store.Live) (id : Int) :
    (traffic.step (.delete id)).store.get id = .error (.noSubmission id) := by
  cases hdelete : traffic.store.delete id with
  | ok after =>
      simp only [step, hdelete]
      exact Change.gone_of_deleted (Store.deleted_of_ok hdelete)
  | error e =>
      simp only [step, hdelete]
      refine Store.get_eq_noSubmission_iff.mpr ⟨hlive.isOpen, ?_⟩
      unfold Store.delete at hdelete
      cases hrow : traffic.store.row? id with
      | none => rfl
      | some r => simp [hlive.isOpen, hrow] at hdelete

/-- A request with which nothing is wrong waits under the next number. -/
theorem step_judge {traffic : Traffic} {request : VerdictRequest} {t : Ticket}
    (h : request.judge traffic.store = .ok t) :
    (traffic.step (.judge request)).store = traffic.store ∧
      (traffic.step (.judge request)).requests[traffic.requests.length]? = some (.judged t) := by
  simp only [step, h]
  exact ⟨trivial, List.getElem?_concat_length⟩

/-- A request stays where it is until it is written. -/
theorem step_requests {traffic : Traffic} {number : Nat} {p : Progress} {m : Move}
    (h : traffic.requests[number]? = some p) (hm : ∀ now, m ≠ .write number now) :
    (traffic.step m).requests[number]? = some p := by
  cases m with
  | judge request =>
      obtain ⟨hlt, -⟩ := List.getElem?_eq_some_iff.mp h
      simp only [step]
      split <;> exact (List.getElem?_append_left hlt).trans h
  | write other now =>
      have hother : other ≠ number := by
        rintro rfl
        exact hm now rfl
      simp only [step]
      split
      · exact (List.getElem?_set_ne hother).trans h
      · exact h
  | create now s =>
      simp only [step]
      split <;> exact h
  | delete id =>
      simp only [step]
      split <;> exact h
  | attach now fresh a =>
      simp only [step]
      split <;> exact h

/-! ## What runs keep -/

/-- What the steps of a run keep, the run keeps. -/
theorem run_keeps {P : Traffic → Prop} (traffic : Traffic) (moves : List Move)
    (hstep : ∀ m ∈ moves, ∀ reached, P reached → P (reached.step m)) (h : P traffic) :
    P (traffic.run moves) := by
  induction moves generalizing traffic with
  | nil => exact h
  | cons m rest ih =>
      exact ih (traffic.step m) (fun m' hm' => hstep m' (List.mem_cons_of_mem m hm'))
        (hstep m List.mem_cons_self traffic h)

theorem run_append (traffic : Traffic) (first second : List Move) :
    traffic.run (first ++ second) = (traffic.run first).run second :=
  List.foldl_append

theorem run_live {traffic : Traffic} (h : traffic.store.Live) (moves : List Move) :
    (traffic.run moves).store.Live := by
  refine run_keeps (P := fun reached => reached.store.Live) traffic moves ?_ h
  intro m _ reached hreached
  exact (reached.step_change m).live hreached

theorem run_lastId_le (traffic : Traffic) (moves : List Move) :
    traffic.store.lastId ≤ (traffic.run moves).store.lastId := by
  refine run_keeps (P := fun reached => traffic.store.lastId ≤ reached.store.lastId) traffic moves
    ?_ (Int.le_refl _)
  intro m _ reached hreached
  exact Int.le_trans hreached (reached.step_change m).lastId_le

theorem run_workOf_eq {traffic : Traffic} {id : Int} (hid : id ≤ traffic.store.lastId)
    {moves : List Move} (hmoves : .delete id ∉ moves) {work : Submission}
    (hwork : traffic.store.workOf id = .ok work) :
    (traffic.run moves).store.workOf id = .ok work := by
  have hkept := run_keeps (P := fun reached =>
    id ≤ reached.store.lastId ∧ reached.store.workOf id = .ok work) traffic moves ?_ ⟨hid, hwork⟩
  · exact hkept.2
  · rintro m hm reached ⟨hle, hsame⟩
    have hchange := reached.step_change m
    have hne : m ≠ .delete id := by
      rintro rfl
      exact hmoves hm
    exact ⟨Int.le_trans hle hchange.lastId_le, hchange.workOf_eq hle hne hsame⟩

theorem run_stays_gone {traffic : Traffic} {id : Int} (hid : id ≤ traffic.store.lastId)
    (hgone : traffic.store.get id = .error (.noSubmission id)) (moves : List Move) :
    (traffic.run moves).store.get id = .error (.noSubmission id) := by
  have hkept := run_keeps (P := fun reached =>
    id ≤ reached.store.lastId ∧ reached.store.get id = .error (.noSubmission id))
    traffic moves ?_ ⟨hid, hgone⟩
  · exact hkept.2
  · rintro m - reached ⟨hle, hgone⟩
    have hchange := reached.step_change m
    exact ⟨Int.le_trans hle hchange.lastId_le, hchange.stays_gone hle hgone⟩

theorem run_requests {traffic : Traffic} {number : Nat} {p : Progress} {moves : List Move}
    (h : traffic.requests[number]? = some p) (hmoves : ∀ now, .write number now ∉ moves) :
    (traffic.run moves).requests[number]? = some p := by
  refine run_keeps (P := fun reached => reached.requests[number]? = some p) traffic moves ?_ h
  intro m hm reached hreached
  apply step_requests hreached
  rintro now rfl
  exact hmoves now hm

theorem run_gone_of_delete {traffic : Traffic} {id : Int} (hlive : traffic.store.Live)
    (hid : id ≤ traffic.store.lastId) {moves : List Move} (hmoves : .delete id ∈ moves) :
    (traffic.run moves).store.get id = .error (.noSubmission id) := by
  obtain ⟨first, rest, rfl⟩ := List.append_of_mem hmoves
  -- what came before the delete does not matter, and what comes after brings nothing back
  rw [run_append]
  have hfirst := traffic.run_lastId_le first
  have hdelete := ((traffic.run first).step_change (.delete id)).lastId_le
  exact run_stays_gone (Int.le_trans hid (Int.le_trans hfirst hdelete))
    (step_delete_gone (run_live hlive first) id) rest

/-! ## Writing what was judged -/

/-- The request of a number was written in full, to a submission that is still the one that was
judged, and nothing else was touched. -/
structure Committed (traffic : Traffic) (number : Nat) (t : Ticket) (now : Moment)
    (after : Traffic) : Prop where
  written : after.store = traffic.store.reviewed now t.id t.verdict
  answered : ∃ s, traffic.store.get t.id = .ok s ∧ s.work = t.seen.work ∧
    after.store.get t.id = .ok (s.reviewed now t.verdict) ∧
    after.requests[number]? = some (.answered (t.saved (s.reviewed now t.verdict)))
  others : ∀ id, id ≠ t.id → after.store.get id = traffic.store.get id

/-- The request of a number was answered as not found, and nothing was written. -/
structure Missed (traffic : Traffic) (number : Nat) (after : Traffic) : Prop where
  unwritten : after.store = traffic.store
  answered : ∃ a : VerdictAnswer, a.SaysNotFound ∧ after.requests[number]? = some (.answered a)

theorem step_write {traffic : Traffic} {number : Nat} {t : Ticket}
    (h : traffic.requests[number]? = some (.judged t)) (now : Moment) :
    (traffic.step (.write number now)).store = (t.write traffic.store now).1 ∧
      (traffic.step (.write number now)).requests[number]? =
        some (.answered (t.write traffic.store now).2) := by
  obtain ⟨hlt, -⟩ := List.getElem?_eq_some_iff.mp h
  simp only [step, h]
  exact ⟨trivial, by simp [hlt]⟩

theorem step_write_committed {traffic : Traffic} {number : Nat} {t : Ticket}
    (h : traffic.requests[number]? = some (.judged t)) (now : Moment)
    (hwork : traffic.store.workOf t.id = .ok t.seen.work)
    (hfind : Problem.find t.seen t.verdict = []) :
    traffic.Committed number t now (traffic.step (.write number now)) := by
  obtain ⟨s, hget, hsame⟩ := Store.workOf_eq_ok_iff.mp hwork
  have hwrite := t.write_of_no_problem now hget
    ((Problem.find_of_work_eq hsame t.verdict).trans hfind)
  obtain ⟨hstore, hanswer⟩ := step_write h now
  rw [hwrite] at hstore hanswer
  refine ⟨hstore, ⟨s, hget, hsame, ?_, hanswer⟩, ?_⟩
  · rw [hstore]
    exact Store.get_reviewed t.verdict now hget
  · intro id hid
    rw [hstore]
    exact Store.get_reviewed_of_ne now t.verdict hid

theorem step_write_missed {traffic : Traffic} {number : Nat} {t : Ticket}
    (h : traffic.requests[number]? = some (.judged t)) (now : Moment)
    (hgone : traffic.store.get t.id = .error (.noSubmission t.id)) :
    traffic.Missed number (traffic.step (.write number now)) := by
  obtain ⟨hopen, hrow⟩ := Store.get_eq_noSubmission_iff.mp hgone
  obtain ⟨e, hwrite, he⟩ := t.write_of_no_row now hopen hrow
  obtain ⟨hstore, hanswer⟩ := step_write h now
  rw [hwrite] at hstore hanswer
  exact ⟨hstore, t.failed e, t.failed_saysNotFound he, hanswer⟩

end Traffic

/-- **What was judged is written, unless it was deleted.** A request comes in after any traffic, is
judged to be without problems, and is written after any further traffic. Unless its submission was
deleted in between, that was there all along with the same work, and the verdict is written to it
in full. If it was deleted, the request is answered as not found and nothing is written: no
submission has taken over the id. -/
theorem judged_then_written (before between : List Move) (request : VerdictRequest) (t : Ticket)
    (now : Moment) (hjudge : request.judge (Traffic.run {} before).store = .ok t)
    (hbetween : ∀ time, .write (Traffic.run {} before).requests.length time ∉ between) :
    let number := (Traffic.run {} before).requests.length
    let judged := (Traffic.run {} before).step (.judge request)
    let reached := judged.run between
    let after := reached.step (.write number now)
    (.delete t.id ∉ between →
      (∀ first rest, between = first ++ rest →
        ∃ s, (judged.run first).store.get t.id = .ok s ∧ s.work = t.seen.work) ∧
      reached.Committed number t now after) ∧
    (.delete t.id ∈ between → reached.Missed number after) := by
  intro number judged reached after
  obtain ⟨hget, hfind⟩ := VerdictRequest.judge_eq_ok hjudge
  have hlive : (Traffic.run {} before).store.Live :=
    Traffic.run_live ⟨rfl, Store.bounded_empty⟩ before
  have hid := hlive.bounded.id_le hget
  obtain ⟨hstore, hstart⟩ := Traffic.step_judge hjudge
  have hpending : reached.requests[number]? = some (.judged t) :=
    Traffic.run_requests hstart hbetween
  rw [← hstore] at hlive hget hid
  -- the ticket waits under its number; all that can change until it is written is the store
  have hwork : judged.store.workOf t.id = .ok t.seen.work :=
    Store.workOf_eq_ok_iff.mpr ⟨t.seen, hget, rfl⟩
  refine ⟨fun hkept => ⟨?_, ?_⟩, fun hdeleted => ?_⟩
  · rintro first rest rfl
    have hfirst : .delete t.id ∉ first := fun h => hkept (List.mem_append_left rest h)
    exact Store.workOf_eq_ok_iff.mp (Traffic.run_workOf_eq hid hfirst hwork)
  · exact Traffic.step_write_committed hpending now (Traffic.run_workOf_eq hid hkept hwork) hfind
  · exact Traffic.step_write_missed hpending now (Traffic.run_gone_of_delete hlive hid hdeleted)

/-- A rejection of the part of the first submission, by a tool call. -/
def VerdictRequest.sample : VerdictRequest :=
  .call [("id", .string "1"), ("parts", .string
    "[\x7b\"index\": 4, \"reviewStatus\": \"rejected\", \"feedback\": \"no\"\x7d]")]

/-- A create of a submission with one part. -/
def Move.sample : Move := .create .zero { parts := some [{ index := 4 }] }

/-- With another request and a create in between the rejection is written; after a delete it is
not, not even to the submission that was created since. -/
theorem sample_judged_then_written :
    ∃ t, VerdictRequest.sample.judge (Traffic.run {} [.sample]).store = .ok t ∧
      (let reached := ((Traffic.run {} [.sample]).step (.judge .sample)).run
        [.judge .sample, .write 1 .zero, .sample]
       reached.Committed 0 t .zero (reached.step (.write 0 .zero))) ∧
      (let reached := ((Traffic.run {} [.sample]).step (.judge .sample)).run [.delete 1, .sample]
       reached.Missed 0 (reached.step (.write 0 .zero))) := by
  have hread : (VerdictRequest.sample.judge
      (Traffic.run {} [.sample]).store).toOption.map (·.id) = some 1 := by decide +kernel
  have hnumber : (Traffic.run {} [.sample]).requests.length = 0 := by decide +kernel
  cases hjudge : VerdictRequest.sample.judge (Traffic.run {} [.sample]).store with
  | error a => simp [hjudge, Except.toOption] at hread
  | ok t =>
      have hid : t.id = 1 := by simpa [hjudge, Except.toOption] using hread
      have hwritten := (judged_then_written [.sample] [.judge .sample, .write 1 .zero, .sample]
        .sample t .zero hjudge (by rw [hnumber]; simp [Move.sample])).1 (by simp [Move.sample])
      have hmissed := (judged_then_written [.sample] [.delete 1, .sample] .sample t .zero hjudge
        (by simp [Move.sample])).2 (by simp [hid])
      rw [hnumber] at hwritten hmissed
      exact ⟨t, rfl, hwritten.2, hmissed⟩

end ReviewQueue
