import ReviewQueue.Proofs.Store.Reviewed
import ReviewQueue.Proofs.Text.Numeral
import ReviewQueue.Server.Handler

/-!
# How an update is answered

`answerReview` reads an id and a body, reads the submission, judges the update and writes it. The
three pieces agree: `update_answered` says that an update is either accepted, written as a whole
and answered with what a read shows afterwards, or refused for a stated reason and without any
effect on the store. In particular no update that was judged to be without problems can fail while
it is written.
-/

namespace ReviewQueue.Server

open Http

/-- A path segment that names a submission by a positive decimal numeral. -/
def Names (segment : List UInt8) (id : Int) : Prop :=
  ∃ text, Text.ofBytes? segment = some text ∧ Text.IsPositiveNumeral text.toList id

/-- An update that was accepted: what it asked for, what it did to the store, and its answer. -/
structure Accepted (store : Store) (now : Timestamp) (segment : List UInt8) (body : String)
    (id : Int) (v : Verdict) (s : Submission) (after : Store) (response : Response) : Prop where
  named : Names segment id
  decoded : Json.decodeFirst? {} Verdict.fill body.toList = some v
  found : store.get id = .ok s
  judged : Problem.find s v = []
  written : after = store.reviewed now id v
  shown : after.get id = .ok (s.reviewed now v)
  others : ∀ other, other ≠ id → after.get other = store.get other
  answered : response = answerGet after segment

/-- Why an update is refused, by the status of the answer. -/
inductive Refused (store : Store) (segment : List UInt8) (body : String) : Int → Prop
  | badId : (∀ id, ¬ Names segment id) → Refused store segment body 400
  | badBody : Json.decodeFirst? {} Verdict.fill body.toList = none → Refused store segment body 400
  | problems {id v s} : Names segment id →
      Json.decodeFirst? {} Verdict.fill body.toList = some v → store.get id = .ok s →
      Problem.find s v ≠ [] → Refused store segment body 400
  | missing {id} : Names segment id → store.isOpen = true → store.row? id = none →
      Refused store segment body 404
  | closed : store.isOpen = false → Refused store segment body 500
  /-- The submission is there, and a time in its row cannot be read. -/
  | unreadable {id r} : Names segment id → store.row? id = some r → ¬ r.Readable →
      Refused store segment body 500

theorem readId_cases (segment : List UInt8) :
    (∃ id, readId segment = .ok id ∧ Names segment id) ∨
      (∃ r, readId segment = .error r ∧ r.status = 400 ∧ ∀ id, ¬ Names segment id) := by
  unfold readId Names
  cases htext : Text.ofBytes? segment with
  | none => exact .inr ⟨_, rfl, rfl, by simp⟩
  | some text =>
      simp only [Option.bind_some, Option.some.injEq, exists_eq_left', ← Text.toInt?_pos_iff]
      cases hread : Text.toInt? text with
      | none => exact .inr ⟨_, rfl, rfl, by simp⟩
      | some id =>
          by_cases hpos : 0 < id
          · exact .inl ⟨id, by simp [hpos], rfl, hpos⟩
          · refine .inr ⟨failure 400 ("invalid submission id " ++ Text.quotedBytes segment),
              by simp [hpos], rfl, ?_⟩
            rintro id' ⟨heq, hpos'⟩
            cases heq
            exact hpos hpos'

/-- Reading fails when the store is closed, the submission is not there, or its row cannot be
read. -/
theorem get_error_cases {store : Store} {id : Int} {e : StoreError} (h : store.get id = .error e) :
    (store.isOpen = false ∧ e.isNotFound = false) ∨
      (store.isOpen = true ∧ store.row? id = none ∧ e.isNotFound = true) ∨
      (∃ r, store.row? id = some r ∧ ¬ r.Readable ∧ e.isNotFound = false) := by
  unfold Store.get at h
  cases hopen : store.isOpen with
  | false =>
      simp only [hopen, Bool.not_false, if_true] at h
      cases h
      exact .inl ⟨rfl, rfl⟩
  | true =>
      simp only [hopen, Bool.not_true, Bool.false_eq_true, if_false] at h
      cases hrow : store.row? id with
      | none =>
          rw [hrow] at h
          cases h
          exact .inr (.inl ⟨rfl, rfl, rfl⟩)
      | some r =>
          rw [hrow] at h
          refine .inr (.inr ⟨r, rfl, fun hread => ?_, ?_⟩)
          · simp [SubmissionRow.submission?_eq_ok_iff.mpr ⟨hread, rfl⟩, Except.mapError] at h
          · cases hscan : r.submission? (store.partsOf id) with
            | ok s => simp [hscan, Except.mapError] at h
            | error cause =>
                simp only [hscan, Except.mapError, Except.error.injEq] at h
                rw [← h]
                rfl

theorem storeFailure_status (e : StoreError) :
    (storeFailure e).status = if e.isNotFound then 404 else 500 := rfl

/-- The answer to a failed store operation is no success. -/
theorem storeFailure_fails (e : StoreError) :
    ¬ (200 ≤ (storeFailure e).status ∧ (storeFailure e).status ≤ 299) := by
  rw [storeFailure_status]
  split <;> decide

/-! ## The answer -/

/-- An update that is not refused before it is written is accepted. -/
theorem answerReview_of_no_problem {service : Service} {segment : List UInt8} {body : String}
    {id : Int} {v : Verdict} {s : Submission} (now : Moment) (hid : readId segment = .ok id)
    (hbody : Json.decodeFirst? {} Verdict.fill body.toList = some v)
    (hget : service.store.get id = .ok s) (hfind : Problem.find s v = []) :
    (answerReview service now segment body).1.store = service.store.reviewed now id v ∧
      (answerReview service now segment body).2 =
        answerGet (service.store.reviewed now id v) segment ∧
      (answerReview service now segment body).2.status = 200 := by
  have hreview := Store.review_of_no_problem now hget hfind
  unfold answerReview answerGet
  simp only [hid, hbody, hget, hfind, hreview, Store.get_reviewed v now hget]
  exact ⟨trivial, trivial, rfl⟩

/-- An update with problems is refused with all of them, in order, and the store stays. -/
theorem answerReview_of_problems {service : Service} {segment : List UInt8} {body : String}
    {id : Int} {v : Verdict} {s : Submission} (now : Timestamp) (hid : readId segment = .ok id)
    (hbody : Json.decodeFirst? {} Verdict.fill body.toList = some v)
    (hget : service.store.get id = .ok s) (hfind : Problem.find s v ≠ []) :
    (answerReview service now segment body).1.store = service.store ∧
      (answerReview service now segment body).2 =
        refusal 400 ((Problem.find s v).map Problem.notice) := by
  obtain ⟨p, ps, hcons⟩ := List.exists_cons_of_ne_nil hfind
  unfold answerReview
  simp only [hid, hbody, hget, hcons]
  exact ⟨trivial, trivial⟩

/-- Every update is accepted, or refused and then without effect. -/
theorem answerReview_cases (service : Service) (now : Moment) (segment : List UInt8)
    (body : String) :
    ((answerReview service now segment body).2.status = 200 ∧
      ∃ id v s, Accepted service.store now segment body id v s
        (answerReview service now segment body).1.store
        (answerReview service now segment body).2) ∨
    ((answerReview service now segment body).1.store = service.store ∧
      Refused service.store segment body (answerReview service now segment body).2.status) := by
  obtain ⟨id, hid, hnamed⟩ | ⟨r, hid, hstatus, hnot⟩ := readId_cases segment
  · cases hbody : Json.decodeFirst? {} Verdict.fill body.toList with
    | none =>
        right
        simp only [answerReview, hid, hbody]
        exact ⟨trivial, .badBody hbody⟩
    | some v =>
        cases hget : service.store.get id with
        | error e =>
            right
            simp only [answerReview, hid, hbody, hget, storeFailure_status]
            refine ⟨trivial, ?_⟩
            obtain ⟨hopen, hkind⟩ | ⟨hopen, hrow, hkind⟩ | ⟨r, hrow, hnot, hkind⟩ :=
              get_error_cases hget
            · simpa [hkind] using Refused.closed hopen
            · simpa [hkind] using Refused.missing hnamed hopen hrow
            · simpa [hkind] using Refused.unreadable hnamed hrow hnot
        | ok s =>
            cases hfind : Problem.find s v with
            | cons p ps =>
                right
                simp only [answerReview, hid, hbody, hget, hfind]
                exact ⟨trivial, .problems hnamed hbody hget (by rw [hfind]; simp)⟩
            | nil =>
                left
                obtain ⟨hstore, hresponse, hstatus⟩ :=
                  answerReview_of_no_problem now hid hbody hget hfind
                refine ⟨hstatus, id, v, s, hnamed, hbody, hget, hfind, hstore, ?_, ?_, ?_⟩
                · rw [hstore]
                  exact Store.get_reviewed v now hget
                · intro other hne
                  rw [hstore]
                  exact Store.get_reviewed_of_ne now v hne
                · rw [hstore]
                  exact hresponse
  · right
    simp only [answerReview, hid]
    exact ⟨trivial, hstatus ▸ .badId hnot⟩

end ReviewQueue.Server
