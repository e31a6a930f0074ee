import ReviewQueue.Proofs.Store.Integrity

/-!
# Reviews in another order, and once more

A review that is accepted is accepted again, and other reviews do not stand in its way. Apart from
the times of the updates, a review that is made twice is one that is made once, and two reviews that
do not overlap lead to the same store in either order. Each part row is decided by the last verdict
for its index, and the status of the whole is derived from what all part rows then are.

* `PartRow.decided_decided`, `PartRow.decided_comm` — part rows that are decided by two reviews;
* `Accepts`, `Accepts.reviewed` — what is accepted stays accepted;
* `undated_reviewed_twice`, `undated_reviewed_comm` — stores after two reviews;
* `reviews_commute` — both orders succeed, and lead to the same.
-/

namespace ReviewQueue

/-! ## Rows -/

/-- Changes of rows under different keys do not meet. -/
theorem comm_of_key_ne {α β : Type} {key : α → β} {f g : α → α} {a b : β} (hne : a ≠ b)
    (hf : ∀ x, key (f x) = key x) (hg : ∀ x, key (g x) = key x)
    (hfa : ∀ x, key x ≠ a → f x = x) (hgb : ∀ x, key x ≠ b → g x = x) (x : α) :
    g (f x) = f (g x) := by
  by_cases ha : key x = a
  · have hb : key x ≠ b := fun hb => hne (ha.symm.trans hb)
    rw [hgb x hb, hgb (f x) (by rwa [hf])]
  · rw [hfa x ha, hfa (g x) (by rwa [hg])]

/-- Two lists of part verdicts that name no index in common. -/
def PartVerdict.Apart (ps qs : List PartVerdict) : Prop :=
  ∀ d ∈ ps, ∀ e ∈ qs, d.index ≠ e.index

instance (ps qs : List PartVerdict) : Decidable (PartVerdict.Apart ps qs) :=
  inferInstanceAs (Decidable (∀ d ∈ ps, ∀ e ∈ qs, d.index ≠ e.index))

theorem PartVerdict.Apart.lastFor? {ps qs : List PartVerdict} (h : Apart ps qs) (index : Int) :
    lastFor? ps index = none ∨ lastFor? qs index = none := by
  by_cases hp : index ∈ ps.map PartVerdict.index
  · right
    apply Store.lastFor?_of_not_mem
    intro hq
    obtain ⟨d, hd, rfl⟩ := List.mem_map.mp hp
    obtain ⟨e, he, heq⟩ := List.mem_map.mp hq
    exact h d hd e he heq.symm
  · exact .inl (Store.lastFor?_of_not_mem hp)

namespace PartRow

variable {id id' : Int} {ps qs : List PartVerdict}

/-- A part row that is decided once more stays as it is. -/
theorem decided_decided (r : PartRow) : (r.decided id ps).decided id ps = r.decided id ps := by
  by_cases hid : r.submissionId = id
  · unfold decided
    cases hlast : PartVerdict.lastFor? ps r.index <;> simp [hid, hlast]
  · rw [decided_of_ne hid, decided_of_ne hid]

/-- Verdicts on different submissions, or on different parts of one, decide in either order. -/
theorem decided_comm (h : id ≠ id' ∨ PartVerdict.Apart ps qs) (r : PartRow) :
    (r.decided id ps).decided id' qs = (r.decided id' qs).decided id ps := by
  by_cases hne : id = id'
  · subst hne
    by_cases hid : r.submissionId = id
    · -- at most one of the two lists has a verdict for the index
      have hlast := (h.resolve_left (fun hne => hne rfl)).lastFor? r.index
      unfold decided
      rcases hlast with hnone | hnone
      · cases hlast : PartVerdict.lastFor? qs r.index <;> simp [hid, hnone, hlast]
      · cases hlast : PartVerdict.lastFor? ps r.index <;> simp [hid, hnone, hlast]
    · rw [decided_of_ne hid, decided_of_ne hid, decided_of_ne hid]
  · exact comm_of_key_ne hne (decided_submissionId id ps) (decided_submissionId id' qs)
      (fun _ hr => decided_of_ne hr ps) (fun _ hr => decided_of_ne hr qs) r

end PartRow

namespace SubmissionRow

variable {id id' : Int} {st st₁ st₂ : Status} {t₁ t₂ t₃ t₄ : Timestamp} {v w : Verdict}

theorem undated_decided_twice (r : SubmissionRow) :
    ((r.decided id st t₁ v).decided id st t₂ v).undated id =
      (r.decided id st t₁ v).undated id := by
  unfold decided undated
  by_cases hid : r.id = id
  · by_cases hkeeps : v.hasParts = true ∨ v.feedback = "" <;> simp [hid, hkeeps]
  · simp [hid]

/-- Verdicts on parts leave the feedback; they agree in all but the status when their times do. -/
theorem undated_decided_parts (hv : v.hasParts = true) (hw : w.hasParts = true)
    (htime : v.timeElapsed = w.timeElapsed) (r : SubmissionRow) :
    ((r.decided id st₁ t₁ v).decided id st t₂ w).undated id =
      ((r.decided id st₂ t₃ w).decided id st t₄ v).undated id := by
  unfold decided undated
  by_cases hid : r.id = id <;> simp [hid, hv, hw, htime]

theorem decided_comm (hne : id ≠ id') (r : SubmissionRow) :
    (r.decided id st₁ t₁ v).decided id' st₂ t₂ w = (r.decided id' st₂ t₂ w).decided id st₁ t₁ v :=
  comm_of_key_ne hne (decided_id id st₁ t₁ v) (decided_id id' st₂ t₂ w)
    (fun _ hr => decided_of_ne hr st₁ t₁ v) (fun _ hr => decided_of_ne hr st₂ t₂ w) r

@[simp] theorem undated_id (id : Int) (r : SubmissionRow) : (r.undated id).id = r.id := by
  unfold undated
  split <;> rfl

theorem undated_comm (r : SubmissionRow) :
    (r.undated id).undated id' = (r.undated id').undated id := by
  by_cases hne : id = id'
  · rw [hne]
  · exact comm_of_key_ne hne (undated_id id) (undated_id id') (fun _ hr => if_neg hr)
      (fun _ hr => if_neg hr) r

end SubmissionRow

/-- A submission without the time at which it was written last. -/
def Submission.undated (s : Submission) : Submission := { s with updatedAt := .zero }

/-- Reviews that do not overlap: of different submissions, or of different parts of one submission
that took the same time. -/
def Verdict.Apart (id : Int) (p : Verdict) (id' : Int) (q : Verdict) : Prop :=
  id ≠ id' ∨ id = id' ∧ p.hasParts = true ∧ q.hasParts = true ∧ p.timeElapsed = q.timeElapsed ∧
    PartVerdict.Apart p.partList q.partList

namespace Store

variable {store : Store} {id id' : Int} {p q : Verdict} {t₁ t₂ t₃ t₄ : Timestamp}

/-! ## Stores after two reviews -/

/-- Reviews leave the rest of a store alone. -/
theorem eq_of_tables {a b : Store} (hlastId : a.lastId = b.lastId)
    (hattachments : a.attachments = b.attachments) (hopen : a.isOpen = b.isOpen)
    (hparts : a.parts = b.parts) (hrows : a.submissions = b.submissions) : a = b := by
  obtain ⟨lastId, submissions, parts, attachments, isOpen⟩ := a
  obtain ⟨rfl, rfl, rfl, rfl, rfl⟩ := And.intro hlastId
    (And.intro hattachments (And.intro hopen (And.intro hparts hrows)))
  rfl

theorem undated_comm (store : Store) :
    (store.undated id).undated id' = (store.undated id').undated id := by
  refine eq_of_tables rfl rfl rfl rfl ?_
  show (store.submissions.map _).map _ = (store.submissions.map _).map _
  rw [List.map_map, List.map_map]
  exact List.map_congr_left fun r _ => r.undated_comm

/-- The status that part verdicts lead to is derived from the parts that they leave. -/
theorem statusAfter_of_hasParts (hparts : p.hasParts = true) (now : Timestamp) :
    store.statusAfter id p = Status.ofParts ((store.reviewed now id p).partsOf id) := by
  rw [statusAfter, if_pos hparts, partsOf_reviewed]

theorem statusAfter_reviewed_of_ne (hne : id' ≠ id) :
    (store.reviewed t₁ id p).statusAfter id' q = store.statusAfter id' q := by
  unfold statusAfter
  rw [partsOf_reviewed_of_ne store t₁ id p hne]

theorem parts_reviewed_reviewed :
    ((store.reviewed t₁ id p).reviewed t₂ id' q).parts =
      store.parts.map fun r => (r.decided id p.partList).decided id' q.partList := by
  show (store.parts.map _).map _ = _
  rw [List.map_map]
  rfl

theorem submissions_reviewed_reviewed :
    ((store.reviewed t₁ id p).reviewed t₂ id' q).submissions =
      store.submissions.map fun r =>
        (r.decided id (store.statusAfter id p) t₁ p).decided id'
          ((store.reviewed t₁ id p).statusAfter id' q) t₂ q := by
  rw [reviewed_submissions, reviewed_submissions, List.map_map]
  rfl

/-- **A review that is made twice is as one that is made once**, but for the time. -/
theorem undated_reviewed_twice :
    ((store.reviewed t₁ id p).reviewed t₂ id p).undated id =
      (store.reviewed t₁ id p).undated id := by
  have hparts : ((store.reviewed t₁ id p).reviewed t₂ id p).parts =
      (store.reviewed t₁ id p).parts := by
    rw [parts_reviewed_reviewed]
    exact List.map_congr_left fun r _ => r.decided_decided
  have hstatus : (store.reviewed t₁ id p).statusAfter id p = store.statusAfter id p := by
    by_cases hp : p.hasParts = true
    · rw [statusAfter_of_hasParts hp t₂, statusAfter_of_hasParts hp t₁]
      exact congrArg Status.ofParts (partsOf_congr (by rw [hparts]))
    · rw [statusAfter, statusAfter, if_neg hp, if_neg hp]
  refine eq_of_tables rfl rfl rfl hparts ?_
  show ((store.reviewed t₁ id p).reviewed t₂ id p).submissions.map _ =
    (store.reviewed t₁ id p).submissions.map _
  rw [submissions_reviewed_reviewed, hstatus, reviewed_submissions, List.map_map, List.map_map]
  exact List.map_congr_left fun r _ => r.undated_decided_twice

/-- Reviews of different submissions lead to the same store in either order. -/
theorem reviewed_comm (hne : id ≠ id') :
    (store.reviewed t₁ id p).reviewed t₂ id' q = (store.reviewed t₂ id' q).reviewed t₁ id p := by
  refine eq_of_tables rfl rfl rfl ?_ ?_
  · rw [parts_reviewed_reviewed, parts_reviewed_reviewed]
    exact List.map_congr_left fun r _ => r.decided_comm (.inl hne)
  · rw [submissions_reviewed_reviewed, submissions_reviewed_reviewed,
      statusAfter_reviewed_of_ne hne.symm, statusAfter_reviewed_of_ne hne]
    exact List.map_congr_left fun r _ => r.decided_comm hne

/-- Reviews of different submissions at other times differ in these times only. -/
theorem undated_reviewed_comm_of_ne (hne : id ≠ id') :
    (((store.reviewed t₁ id p).reviewed t₂ id' q).undated id).undated id' =
      (((store.reviewed t₃ id' q).reviewed t₄ id p).undated id).undated id' := by
  calc (((store.reviewed t₁ id p).reviewed t₂ id' q).undated id).undated id'
      = (((store.reviewed t₁ id p).reviewed t₃ id' q).undated id').undated id := by
        rw [undated_comm, undated_reviewed _ t₂ t₃]
    _ = (((store.reviewed t₃ id' q).reviewed t₁ id p).undated id).undated id' := by
        rw [reviewed_comm hne, undated_comm]
    _ = (((store.reviewed t₃ id' q).reviewed t₄ id p).undated id).undated id' := by
        rw [undated_reviewed _ t₁ t₄]

/-- Reviews of different parts of one submission lead to the same store in either order, but for
the time: the status is derived from all parts, whichever review came last. -/
theorem undated_reviewed_comm_of_apart (hp : p.hasParts = true) (hq : q.hasParts = true)
    (htime : p.timeElapsed = q.timeElapsed) (hapart : PartVerdict.Apart p.partList q.partList) :
    ((store.reviewed t₁ id p).reviewed t₂ id q).undated id =
      ((store.reviewed t₃ id q).reviewed t₄ id p).undated id := by
  have hparts : ((store.reviewed t₁ id p).reviewed t₂ id q).parts =
      ((store.reviewed t₃ id q).reviewed t₄ id p).parts := by
    rw [parts_reviewed_reviewed, parts_reviewed_reviewed]
    exact List.map_congr_left fun r _ => r.decided_comm (.inr hapart)
  have hstatus : (store.reviewed t₁ id p).statusAfter id q =
      (store.reviewed t₃ id q).statusAfter id p := by
    rw [statusAfter_of_hasParts hq t₂, statusAfter_of_hasParts hp t₄]
    exact congrArg Status.ofParts (partsOf_congr (by rw [hparts]))
  refine eq_of_tables rfl rfl rfl hparts ?_
  show ((store.reviewed t₁ id p).reviewed t₂ id q).submissions.map _ =
    ((store.reviewed t₃ id q).reviewed t₄ id p).submissions.map _
  rw [submissions_reviewed_reviewed, submissions_reviewed_reviewed, hstatus, List.map_map,
    List.map_map]
  exact List.map_congr_left fun r _ => r.undated_decided_parts hp hq htime

/-! ## Accepted reviews -/

/-- A review that a store accepts. -/
def Accepts (store : Store) (id : Int) (v : Verdict) : Prop :=
  ∃ now after s, store.review now id v = (after, .ok s)

/-- What is accepted is a review of a submission that is there and whose creation time can be read,
of parts that are there. -/
theorem accepts_iff : store.Accepts id p ↔
    store.isOpen = true ∧
      (∃ r, store.row? id = some r ∧ (Timestamp.ofColumn? r.createdAt).isSome) ∧
      ∀ d ∈ p.partList, store.parts.any (isPart id d.index) = true := by
  constructor
  · rintro ⟨now, after, answer, hreview⟩
    obtain ⟨e, herror, -⟩ | ⟨hopen, hsome, known, hknown⟩ := store.review_cases now id p
    · rw [herror] at hreview
      cases hreview
    · obtain ⟨r, hrow⟩ := Option.isSome_iff_exists.mp hsome
      obtain ⟨-, hget⟩ := Prod.mk.inj (hknown.symm.trans hreview)
      exact ⟨hopen, ⟨r, hrow, ((readable_reviewed_iff hrow now p).mp ⟨answer, hget⟩).2.1⟩, known⟩
  · rintro ⟨hopen, ⟨r, hrow, hcreated⟩, known⟩
    have hnow : (Timestamp.ofColumn? Timestamp.zero.column).isSome := by
      rw [Timestamp.isKept_zero.ofColumn?_column]
      rfl
    obtain ⟨s, hget⟩ := (readable_reviewed_iff hrow .zero p).mpr ⟨hopen, hcreated, hnow⟩
    refine ⟨.zero, store.reviewed .zero id p, s, ?_⟩
    rw [review_of_known .zero hopen (by rw [hrow]; rfl) known, hget]

/-- An accepted review is written at any time, and answered with what is then read. -/
theorem Accepts.review_eq (h : store.Accepts id p) (now : Moment) :
    ∃ s : Submission, store.review now id p = (store.reviewed now id p, .ok (s.reviewed now p)) ∧
      (store.reviewed now id p).get id = .ok (s.reviewed now p) := by
  obtain ⟨hopen, ⟨r, hrow, hcreated⟩, known⟩ := accepts_iff.mp h
  have hid : r.id = id := (row?_eq_some hrow).2
  have hget : (store.reviewed now id p).get id =
      .ok ((r.submission (store.partsOf id)).reviewed now p) := by
    refine get_eq_ok_iff.mpr ⟨hopen, r.decided id (store.statusAfter id p) now p, ?_,
      readable_decided p hid _ now hcreated, ?_⟩
    · rw [row?_reviewed, hrow]
      rfl
    · rw [partsOf_reviewed]
      exact submission_decided p now hid (store.partsOf id) _ rfl
  refine ⟨r.submission (store.partsOf id), ?_, hget⟩
  rw [review_of_known now hopen (by rw [hrow]; rfl) known, hget]

/-- **A review that is accepted stays accepted**, whatever else is reviewed. -/
theorem Accepts.reviewed (h : store.Accepts id p) (now : Timestamp) (id' : Int) (q : Verdict) :
    (store.reviewed now id' q).Accepts id p := by
  obtain ⟨hopen, ⟨r, hrow, hcreated⟩, known⟩ := accepts_iff.mp h
  refine accepts_iff.mpr ⟨hopen, ⟨_, by rw [row?_reviewed, hrow]; rfl, ?_⟩, ?_⟩
  · -- no review touches the time of the creation
    unfold SubmissionRow.decided
    split <;> exact hcreated
  · intro d hd
    show (store.parts.map (PartRow.decided id' q.partList)).any (isPart id d.index) = true
    rw [any_isPart_decided]
    exact known d hd

/-- Two reviews, one after the other. -/
def reviewTwice (store : Store) (now : Timestamp) (id : Int) (p : Verdict) (now' : Timestamp)
    (id' : Int) (q : Verdict) : Store × Except StoreError Submission :=
  match store.review now id p with
  | (between, .ok _) => between.review now' id' q
  | (between, .error e) => (between, .error e)

theorem Accepts.reviewTwice_eq (hp : store.Accepts id p) (hq : store.Accepts id' q)
    (t₁ t₂ : Moment) :
    ∃ s : Submission,
      store.reviewTwice t₁ id p t₂ id' q =
        ((store.reviewed t₁ id p).reviewed t₂ id' q, .ok (s.reviewed t₂ q)) ∧
      ((store.reviewed t₁ id p).reviewed t₂ id' q).get id' = .ok (s.reviewed t₂ q) := by
  obtain ⟨_, hreview, -⟩ := hp.review_eq t₁
  obtain ⟨s, hreview', hget⟩ := (hq.reviewed t₁ id p).review_eq t₂
  refine ⟨s, ?_, hget⟩
  rw [reviewTwice, hreview]
  exact hreview'

/-! ## Both orders -/

theorem row?_undated :
    (store.undated id).row? id = (store.row? id).map (SubmissionRow.undated id) := by
  show (store.submissions.map _).find? _ = _
  rw [List.find?_map]
  congr 2
  funext r
  rw [Function.comp_apply, SubmissionRow.undated_id]

/-- Stores that differ in the time at which a submission was written last show it alike. -/
theorem shown_alike {a b : Store} {s s' : Submission} (h : a.undated id = b.undated id)
    (ha : a.get id = .ok s) (hb : b.get id = .ok s') : s.undated = s'.undated := by
  have hview {r : SubmissionRow} (hid : r.id = id) (parts : List Part) :
      (r.undated id).submission parts = (r.submission parts).undated := by
    rw [SubmissionRow.undated, if_pos hid]
    rfl
  obtain ⟨-, r, hrow, -, rfl⟩ := get_eq_ok_iff.mp ha
  obtain ⟨-, r', hrow', -, rfl⟩ := get_eq_ok_iff.mp hb
  have hrows := congrArg (Store.row? · id) h
  simp only [row?_undated, hrow, hrow', Option.map_some, Option.some.injEq] at hrows
  have hparts := congrArg (Store.partsOf · id) h
  change a.partsOf id = b.partsOf id at hparts
  rw [← hview (row?_eq_some hrow).2, ← hview (row?_eq_some hrow').2, hrows, hparts]

/-- **Reviews can be made again, and in another order.** Of the reviews that a store accepts, one
that is made twice leads to the same store as once. Two that do not overlap, since they are of
different submissions or of different parts of one, are accepted in both orders and lead to the same
store; the status of a submission that both were of is derived from its parts. All of this is at any
times, and but for the times at which the submissions were written last. -/
theorem reviews_commute {store : Store} {id : Int} {p : Verdict} (hp : store.Accepts id p) :
    (∀ t₁ t₂ : Moment, ∃ once twice s s', store.review t₁ id p = (once, .ok s) ∧
      store.reviewTwice t₁ id p t₂ id p = (twice, .ok s') ∧
      twice.undated id = once.undated id ∧ s'.undated = s.undated) ∧
    ∀ id' q, store.Accepts id' q → Verdict.Apart id p id' q → ∀ t₁ t₂ t₃ t₄ : Moment, ∃ a b s s',
      store.reviewTwice t₁ id p t₂ id' q = (a, .ok s) ∧
      store.reviewTwice t₃ id' q t₄ id p = (b, .ok s') ∧
      (a.undated id).undated id' = (b.undated id).undated id' ∧
      (id = id' → s.undated = s'.undated ∧ s.status = Status.ofParts s.partList) := by
  constructor
  · intro t₁ t₂
    obtain ⟨s, hreview, hget⟩ := hp.review_eq t₁
    obtain ⟨s', htwice, hget'⟩ := hp.reviewTwice_eq hp t₁ t₂
    refine ⟨_, _, _, _, hreview, htwice, undated_reviewed_twice, ?_⟩
    exact shown_alike undated_reviewed_twice hget' hget
  · intro id' q hq hapart t₁ t₂ t₃ t₄
    obtain ⟨s, hfirst, hget⟩ := hp.reviewTwice_eq hq t₁ t₂
    obtain ⟨s', hsecond, hget'⟩ := hq.reviewTwice_eq hp t₃ t₄
    refine ⟨_, _, _, _, hfirst, hsecond, ?_⟩
    rcases hapart with hne | ⟨rfl, hparts, hparts', htime, hindexes⟩
    · exact ⟨undated_reviewed_comm_of_ne hne, fun heq => absurd heq hne⟩
    · have hstores : ((store.reviewed t₁ id p).reviewed t₂ id q).undated id =
          ((store.reviewed t₃ id q).reviewed t₄ id p).undated id :=
        undated_reviewed_comm_of_apart hparts hparts' htime hindexes
      refine ⟨by rw [hstores], fun _ => ⟨shown_alike hstores hget hget', ?_⟩⟩
      show (if q.hasParts then _ else q.status) = _
      rw [if_pos hparts']
      rfl

end Store

/-! ## Two reviews of one submission -/

/-- A store with a submission of two parts. -/
def Store.ofTwoParts : Store :=
  { lastId := 1
    submissions := [.ofSubmission { id := 1, feedback := "kept" }]
    parts := [⟨1, 0, none, none⟩, ⟨1, 1, some "REJECTED", some "blurry"⟩] }

/-- Two verdicts on the first part, of which the second counts. -/
def Verdict.onFirst : Verdict :=
  { timeElapsed := 30
    parts := some
      [{ index := 0, status := .rejected, feedback := "no" }, { index := 0, status := .approved }] }

/-- A verdict on the second part. -/
def Verdict.onSecond : Verdict :=
  { timeElapsed := 30, parts := some [{ index := 1, status := .approved }] }

/-- A part of the first second of all. -/
def Moment.early (nanos : Nat) (h : nanos < 1000000000) : Moment where
  time := { Timestamp.zero with nanos }
  kept :=
    have ⟨hyear, hmonth, hday, hhour, hminute, hsecond, _⟩ := Timestamp.isReal_zero
    ⟨⟨hyear, hmonth, hday, hhour, hminute, hsecond, h⟩, Timestamp.isKept_zero.zone⟩

theorem Store.ofTwoParts_found : ∃ r, ofTwoParts.row? 1 = some r ∧
    (Timestamp.ofColumn? r.createdAt).isSome :=
  ⟨_, rfl, Option.isSome_iff_exists.mpr ⟨.zero, Timestamp.isKept_zero.ofColumn?_column⟩⟩

theorem Store.accepts_onFirst : ofTwoParts.Accepts 1 .onFirst :=
  accepts_iff.mpr ⟨rfl, ofTwoParts_found, by decide⟩

theorem Store.accepts_onSecond : ofTwoParts.Accepts 1 .onSecond :=
  accepts_iff.mpr ⟨rfl, ofTwoParts_found, by decide⟩

theorem Store.ofTwoParts_reviews_commute : ∃ a b s s',
    ofTwoParts.reviewTwice (Moment.early 0 (by decide)) 1 .onFirst
      (Moment.early 5 (by decide)) 1 .onSecond = (a, .ok s) ∧
    ofTwoParts.reviewTwice (Moment.early 1 (by decide)) 1 .onSecond
      (Moment.early 2 (by decide)) 1 .onFirst = (b, .ok s') ∧
    (a.undated 1).undated 1 = (b.undated 1).undated 1 ∧ s.undated = s'.undated ∧
    a.parts = [⟨1, 0, some "APPROVED", none⟩, ⟨1, 1, some "APPROVED", none⟩] := by
  obtain ⟨-, hcommute⟩ := reviews_commute accepts_onFirst
  have hapart : Verdict.Apart 1 .onFirst 1 .onSecond := .inr ⟨rfl, rfl, rfl, rfl, by decide⟩
  obtain ⟨a, b, s, s', hfirst, hsecond, hstores, hshown⟩ := hcommute 1 .onSecond accepts_onSecond
    hapart (.early 0 (by decide)) (.early 5 (by decide)) (.early 1 (by decide))
    (.early 2 (by decide))
  refine ⟨a, b, s, s', hfirst, hsecond, hstores, (hshown rfl).1, ?_⟩
  -- the parts that are left can be computed
  obtain ⟨_, hknown, -⟩ :=
    accepts_onFirst.reviewTwice_eq accepts_onSecond (.early 0 (by decide)) (.early 5 (by decide))
  obtain ⟨rfl, -⟩ := Prod.mk.inj (hknown.symm.trans hfirst)
  rfl

end ReviewQueue
