import ReviewQueue.Proofs.Import.Run
import ReviewQueue.Proofs.Review.Request

/-!
# Stored verdicts stay good

Three ways lead into the tables: imports, updates over HTTP, and tool calls. `Store.Good` says what
the verdicts in a store may look like, and `store_good_after_run` that no sequence of the three
leads out of it. Neither does one lead to a row that cannot be read (`store_readable_after_run`).

The invariant behind it is `Store.Kept`: on top of `Good` it bounds the ids in use, so that a new
submission does not get parts that were there before it.
-/

namespace ReviewQueue

/-- A part that was not reviewed, or whose verdict could be given. -/
def Part.Good (p : Part) : Prop :=
  p.status = .none ∨ p.status.Justified p.feedback

/-- What the verdicts on a submission may look like. -/
structure Submission.Good (s : Submission) : Prop where
  derived : s.hasParts = true → s.status = .none ∨ s.status = Status.ofParts s.partList
  whole : s.hasParts = false → s.status = .none ∨ s.status.Justified s.feedback
  parts : ∀ p ∈ s.partList, p.Good

/-- The verdicts are good whenever they were written. -/
theorem Submission.Good.written {s : Submission} (h : s.Good) (updatedAt : Timestamp) :
    { s with updatedAt }.Good :=
  ⟨h.derived, h.whole, h.parts⟩

/-- A store in which the verdicts on every submission are good. -/
def Store.Good (store : Store) : Prop :=
  ∀ r ∈ store.submissions, (r.submission (store.partsOf r.id)).Good

/-- The invariant of all runs. -/
structure Store.Kept (store : Store) : Prop where
  bounded : store.Bounded
  good : store.Good

/-! ## One update of one submission -/

theorem PartVerdict.mem_of_lastFor? {verdicts : List PartVerdict} {index : Int} {d : PartVerdict}
    (h : lastFor? verdicts index = some d) : d ∈ verdicts :=
  (List.mem_filter.mp (List.mem_of_getLast? h)).1

theorem Part.decided_good {verdicts : List PartVerdict} {p : Part}
    (given : ∀ d ∈ verdicts, d.status.Justified d.feedback) (h : p.Good) :
    (p.decided verdicts).Good := by
  unfold Part.decided
  cases hlast : PartVerdict.lastFor? verdicts p.index with
  | none => exact h
  | some d => exact .inr (given d (PartVerdict.mem_of_lastFor? hlast))

/-- An update with which nothing is wrong keeps the verdicts on a submission good. -/
theorem Submission.reviewed_good {s : Submission} {v : Verdict} (now : Timestamp) (h : s.Good)
    (hfind : Problem.find s v = []) : (s.reviewed now v).Good := by
  obtain ⟨-, hjudged⟩ := (Problem.find_eq_nil_iff s v).mp hfind
  have hparts : (s.reviewed now v).partList = s.partList.map (Part.decided v.partList) := rfl
  have hhas : (s.reviewed now v).hasParts = s.hasParts := by
    simp [Submission.hasParts, hparts]
  by_cases hs : s.hasParts = true
  · -- part by part: the status is derived from the decided parts
    rw [if_pos hs] at hjudged
    obtain ⟨hv, hgiven⟩ := hjudged
    refine ⟨fun _ => .inr ?_, fun hnone => ?_, ?_⟩
    · show (if v.hasParts then Status.ofParts _ else v.status) = _
      rw [if_pos hv]
      rfl
    · rw [hhas, hs] at hnone
      cases hnone
    · rw [hparts]
      intro p hp
      obtain ⟨q, hq, rfl⟩ := List.mem_map.mp hp
      exact Part.decided_good (fun d hd => (hgiven d hd).2) (h.parts q hq)
  · -- as a whole: a rejection brings its own feedback, so the older one is not kept
    rw [if_neg hs] at hjudged
    obtain ⟨hv, hknown, hreason⟩ := hjudged
    have hnone : s.partList = [] := by simpa [Submission.hasParts] using hs
    have hstatus : (s.reviewed now v).status = v.status := by
      show (if v.hasParts then Status.ofParts _ else v.status) = _
      simp [hv]
    refine ⟨fun hhas' => ?_, fun _ => .inr ⟨?_, fun hrejected => ?_⟩, ?_⟩
    · rw [hhas] at hhas'
      exact absurd hhas' hs
    · rw [hstatus]
      exact hknown
    · rw [hstatus] at hrejected
      have htext := hreason hrejected
      have hbrought : v.feedback ≠ "" := by
        intro hempty
        rw [hempty] at htext
        exact htext rfl
      show Text.trimmed (if v.hasParts ∨ v.feedback = "" then s.feedback else v.feedback) ≠ ""
      rw [if_neg (by simp [hv, hbrought])]
      exact htext
    · rw [hparts, hnone]
      intro p hp
      cases hp

/-! ## One operation on the store -/

namespace Store.Kept

theorem empty : Store.Kept {} :=
  ⟨Store.bounded_empty, fun _ h => absurd h List.not_mem_nil⟩

theorem reviewed {store : Store} (h : store.Kept) {id : Int} {v : Verdict} {s : Submission}
    (now : Timestamp) (hget : store.get id = .ok s) (hfind : Problem.find s v = []) :
    (store.reviewed now id v).Kept := by
  refine ⟨h.bounded.reviewed now id v, ?_⟩
  intro r' hr'
  rw [Store.reviewed_submissions] at hr'
  obtain ⟨r, hr, rfl⟩ := List.mem_map.mp hr'
  rw [SubmissionRow.decided_id]
  by_cases hid : r.id = id
  · -- the row that was found and this one have the same parts
    obtain ⟨-, found, hrow, -, rfl⟩ := Store.get_eq_ok_iff.mp hget
    have hsame : r.id = found.id := by rw [hid, (Store.row?_eq_some hrow).2]
    have hfind' : Problem.find (r.submission (store.partsOf id)) v = [] := by
      rw [← hfind]
      exact Problem.find_congr (s := r.submission (store.partsOf id))
        (t := found.submission (store.partsOf id)) hsame rfl v
    rw [hid, Store.partsOf_reviewed,
      Store.submission_decided_at now v hid (store.partsOf id) (store.statusAfter id v) rfl]
    exact (Submission.reviewed_good now (hid ▸ h.good r hr) hfind').written _
  · rw [SubmissionRow.decided_of_ne hid, Store.partsOf_reviewed_of_ne store now id v hid]
    exact h.good r hr

theorem created {store after : Store} {now : Timestamp} {s new : Submission} (h : store.Kept)
    (hc : store.Created now s after new) (hstatus : s.status = .none)
    (hparts : ∀ p ∈ s.partList, p.Good) : after.Kept := by
  refine ⟨h.bounded.created hc, ?_⟩
  intro r hr
  rw [hc.submissions] at hr
  rcases List.mem_append.mp hr with hr | hr
  · -- an older submission: its id was handed out before, so it gets no new parts
    have hle := h.bounded.rows r hr
    rw [hc.partsOf_of_ne (by omega)]
    exact h.good r hr
  · -- the new one: it has no verdict, and its parts are the ones that were given
    rw [List.mem_singleton.mp hr]
    have hid : (SubmissionRow.ofSubmission new).id = store.lastId + 1 := hc.new_id
    have hnone : ((SubmissionRow.ofSubmission new).submission
        (after.partsOf (store.lastId + 1))).status = .none := by
      rw [hc.new_eq]
      show Status.mk (Column.text (Column.ofText s.status.label)) = _
      rw [hstatus]
      rfl
    rw [hid]
    refine ⟨fun _ => .inl hnone, fun _ => .inl hnone, ?_⟩
    intro p hp
    rw [hc.partsOf_new h.bounded] at hp
    exact hparts p (Part.mem_sort.mp hp)

theorem attached {store after : Store} {new : Attachment} (h : store.Kept)
    (ha : store.Attached new after) : after.Kept := by
  refine ⟨h.bounded.attached ha, ?_⟩
  intro r hr
  rw [ha.submissions] at hr
  have hparts : after.partsOf r.id = store.partsOf r.id :=
    Store.partsOf_congr (by rw [ha.parts])
  rw [hparts]
  exact h.good r hr

theorem atMostReviewed {store after : Store} {now : Timestamp} (h : store.Kept)
    (hr : store.AtMostReviewed now after) : after.Kept := by
  rcases hr with rfl | ⟨id, v, s, hget, hfind, rfl⟩
  · exact h
  · exact h.reviewed now hget hfind

end Store.Kept

/-! ## Runs -/

/-- Something that happens to the store of a service. -/
inductive StoreEvent where
  | imported (file : ImportFile) (clock : Clock) (console : Console)
  | requested (now : Timestamp) (request : Http.Request)
  | called (now : Timestamp) (tool : String) (args : Tools.Args)

namespace StoreEvent

/-- An import is only asked to bring good parts; requests and calls may say anything. -/
def Admissible : StoreEvent → Prop
  | .imported file _ _ => ∀ r ∈ file.records, ∀ p ∈ r.parts.getD [], p.Good
  | .requested _ _ => True
  | .called _ _ _ => True

/-- The service after an event. -/
def happen (service : Service) : StoreEvent → Service
  | .imported file clock console =>
    { service with store := (Import.run file ⟨service.store, clock⟩ console).1.stored.store }
  | .requested now request => (Server.answer service now request).1
  | .called now tool args => { service with store := (Tools.call service.store now tool args).1 }

theorem happen_kept {service : Service} {e : StoreEvent} (ha : e.Admissible)
    (h : service.store.Kept) : (e.happen service).store.Kept := by
  cases e with
  | imported file clock console =>
      refine Import.run_keeps (P := Store.Kept) ?_ ?_ console h
      · intro r hr store k after new hkept hc
        exact hkept.created hc rfl (ha r hr)
      · intro store after new hkept hattached
        exact hkept.attached hattached
  | requested now request => exact h.atMostReviewed (Server.answer_store service now request)
  | called now tool args => exact h.atMostReviewed (Tools.call_store service.store now tool args)

end StoreEvent

/-- The service after a series of events. -/
def Service.run (service : Service) (events : List StoreEvent) : Service :=
  events.foldl (fun service e => e.happen service) service

theorem run_kept {events : List StoreEvent} (ha : ∀ e ∈ events, e.Admissible) {service : Service}
    (h : service.store.Kept) : (service.run events).store.Kept := by
  induction events generalizing service with
  | nil => exact h
  | cons e rest ih =>
      exact ih (fun e he => ha e (List.mem_cons_of_mem _ he))
        (StoreEvent.happen_kept (ha e List.mem_cons_self) h)

/-- **Stored verdicts stay good.** From the empty store, after any series of imports with good
parts, requests and tool calls, the verdicts on every submission are good. -/
theorem store_good_after_run (service : Service) (hempty : service.store = {})
    (events : List StoreEvent) (ha : ∀ e ∈ events, e.Admissible) :
    (service.run events).store.Good := by
  have hstart : service.store.Kept := by
    rw [hempty]
    exact Store.Kept.empty
  exact (run_kept ha hstart).good

/-! ## What is written can be read -/

/-- The readings of the clock at an event can be read back, as any times in UTC can that are of
years with four digits. -/
def StoreEvent.Timed : StoreEvent → Prop
  | .imported _ clock _ => clock.Sound
  | .requested now _ => now.IsKept
  | .called now _ _ => now.IsKept

theorem Store.Readable.atMostReviewed {store after : Store} {now : Timestamp}
    (h : store.Readable) (hnow : now.IsKept) (hr : store.AtMostReviewed now after) :
    after.Readable := by
  rcases hr with rfl | ⟨id, v, s, -, -, rfl⟩
  · exact h
  · exact h.reviewed v ⟨now, hnow⟩ id

theorem StoreEvent.happen_readable {service : Service} {e : StoreEvent} (ht : e.Timed)
    (h : service.store.Readable) : (e.happen service).store.Readable := by
  cases e with
  | imported file clock console =>
      refine Import.run_keeps (P := Store.Readable) ?_ ?_ console h
      · intro r _ store k after new hkept hc
        exact hkept.created hc (ht k) Timestamp.isKept_zero
      · intro store after new hkept hattached r hr
        exact hkept r (hattached.submissions ▸ hr)
  | requested now request => exact h.atMostReviewed ht (Server.answer_store service now request)
  | called now tool args => exact h.atMostReviewed ht (Tools.call_store service.store now tool args)

/-- **What imports, requests and tool calls write can be read.** -/
theorem store_readable_after_run {events : List StoreEvent} (ht : ∀ e ∈ events, e.Timed)
    {service : Service} (h : service.store.Readable) : (service.run events).store.Readable := by
  induction events generalizing service with
  | nil => exact h
  | cons e rest ih =>
      exact ih (fun e he => ht e (List.mem_cons_of_mem _ he))
        (StoreEvent.happen_readable (ht e List.mem_cons_self) h)

/-- An import of two submissions, a rejection of the part of the first over HTTP, and an approval of
the second by a tool call. -/
def StoreEvent.sample : List StoreEvent :=
  [.imported
    { project := "p"
      batch := "b"
      submissions := some [{ title := "t", parts := some [{ index := 4 }] }, { title := "u" }] }
    (Clock.ofStart 0 0) {},
   .requested .zero
    { method := "PUT"
      target := "/api/v1/submissions/1"
      body := "\x7b\"parts\": [\x7b\"index\": 4, \"reviewStatus\": \"REJECTED\", " ++
        "\"feedback\": \"no\"\x7d]\x7d" },
   .called .zero "rq_review_submission" [("id", .string "2"), ("status", .string "approved")]]

theorem store_good_after_sample :
    (Service.run {} StoreEvent.sample).store.submissions.map (·.status) =
        [some "REJECTED", some "APPROVED"] ∧
      (Service.run {} StoreEvent.sample).store.Good := by
  refine ⟨by decide +kernel, store_good_after_run {} rfl StoreEvent.sample ?_⟩
  have hpart : Part.Good { index := 4 } := .inl rfl
  simp [StoreEvent.sample, StoreEvent.Admissible, ImportFile.records, hpart]

end ReviewQueue
