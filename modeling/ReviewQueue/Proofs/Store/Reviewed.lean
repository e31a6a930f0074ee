import ReviewQueue.Proofs.Review.Problem
import ReviewQueue.Proofs.Store.Column
import ReviewQueue.Store.Basic

/-!
# What a review writes

`Store.review` sets part verdicts one after the other, derives the status from what it then finds,
and reads the submission back. Here its effect is said in one go: `Store.reviewed` changes every
row on its own, a part by the *last* verdict for its index.

* `setParts_of_known` — the part updates in sequence are one map over the rows;
* `review_of_no_problem` — an update with which nothing is wrong is written in full;
* `review_cases` — any update is written in full or not at all;
* `review_of_no_row` — an update of what is not there fails as not found;
* `get_reviewed`, `get_reviewed_of_ne` — what reading shows afterwards;
* `undated_reviewed` — the time of an update shows in one column only.
-/

namespace ReviewQueue

/-! ## The intended effect -/

/-- The part verdict that counts for an index: of several, the last. -/
def PartVerdict.lastFor? (verdicts : List PartVerdict) (index : Int) : Option PartVerdict :=
  (verdicts.filter (·.index == index)).getLast?

/-- A part after part verdicts. -/
def Part.decided (verdicts : List PartVerdict) (p : Part) : Part :=
  match PartVerdict.lastFor? verdicts p.index with
  | some d => { p with status := d.status, feedback := d.feedback }
  | none => p

/-- A part row after part verdicts on a submission. -/
def PartRow.decided (id : Int) (verdicts : List PartVerdict) (r : PartRow) : PartRow :=
  if r.submissionId = id then
    match PartVerdict.lastFor? verdicts r.index with
    | some d =>
      { r with status := Column.ofText d.status.label, feedback := Column.ofText d.feedback }
    | none => r
  else r

/-- The row of a submission after an update that leads to a status. -/
def SubmissionRow.decided (id : Int) (status : Status) (now : Timestamp) (v : Verdict)
    (r : SubmissionRow) : SubmissionRow :=
  if r.id = id then
    { r with
      status := Column.ofText status.label
      feedback := if v.hasParts ∨ v.feedback = "" then r.feedback else some v.feedback
      timeElapsed := v.timeElapsed
      updatedAt := now.column }
  else r

/-- A submission after an update: parts change by the last verdict for their index, part verdicts
decide the status and leave the feedback, and a verdict on the whole replaces the feedback only
when it brings one. -/
def Submission.reviewed (now : Timestamp) (v : Verdict) (s : Submission) : Submission :=
  let parts := s.partList.map (Part.decided v.partList)
  { s with
    status := if v.hasParts then Status.ofParts parts else v.status
    feedback := if v.hasParts ∨ v.feedback = "" then s.feedback else v.feedback
    parts := some parts
    timeElapsed := v.timeElapsed
    updatedAt := now }

/-- The store after an update of a submission; all other rows are as they were. -/
def Store.reviewed (store : Store) (now : Timestamp) (id : Int) (v : Verdict) : Store :=
  let parts := store.parts.map (PartRow.decided id v.partList)
  let status := if v.hasParts then Status.ofParts ({ store with parts }.partsOf id) else v.status
  { store with
    parts
    submissions := store.submissions.map (SubmissionRow.decided id status now v) }

/-- A row without the time at which its submission was written last. -/
def SubmissionRow.undated (id : Int) (r : SubmissionRow) : SubmissionRow :=
  if r.id = id then { r with updatedAt := "" } else r

/-- The store without the time at which a submission was written last. -/
def Store.undated (store : Store) (id : Int) : Store :=
  { store with submissions := store.submissions.map (SubmissionRow.undated id) }

/-! ## Columns, rows and sorted parts -/

@[simp] theorem Column.text_ofText (s : String) : Column.text (Column.ofText s) = s := by
  unfold Column.text Column.ofText
  split
  · simp [*]
  · rfl

theorem Column.ofText_eq_none_iff {s : String} : Column.ofText s = none ↔ s = "" := by
  unfold Column.ofText
  split <;> simp [*]

theorem Status.label_eq_empty_iff {st : Status} : st.label = "" ↔ st = .none := by
  constructor
  · intro h
    exact congrArg Status.mk h
  · intro h
    rw [h]
    rfl

@[simp] theorem SubmissionRow.decided_id (id : Int) (status : Status) (now : Timestamp)
    (v : Verdict) (r : SubmissionRow) : (r.decided id status now v).id = r.id := by
  unfold SubmissionRow.decided
  split <;> rfl

theorem SubmissionRow.decided_of_ne {id : Int} {r : SubmissionRow} (h : r.id ≠ id)
    (status : Status) (now : Timestamp) (v : Verdict) : r.decided id status now v = r :=
  if_neg h

theorem SubmissionRow.undated_decided (id : Int) (status : Status) (now now' : Timestamp)
    (v : Verdict) (r : SubmissionRow) :
    (r.decided id status now v).undated id = (r.decided id status now' v).undated id := by
  unfold decided undated
  by_cases h : r.id = id <;> simp [h]

@[simp] theorem PartRow.decided_submissionId (id : Int) (verdicts : List PartVerdict)
    (r : PartRow) : (r.decided id verdicts).submissionId = r.submissionId := by
  unfold PartRow.decided
  split
  · split <;> rfl
  · rfl

@[simp] theorem PartRow.decided_index (id : Int) (verdicts : List PartVerdict) (r : PartRow) :
    (r.decided id verdicts).index = r.index := by
  unfold PartRow.decided
  split
  · split <;> rfl
  · rfl

theorem PartRow.decided_of_ne {id : Int} {r : PartRow} (h : r.submissionId ≠ id)
    (verdicts : List PartVerdict) : r.decided id verdicts = r :=
  if_neg h

@[simp] theorem Part.decided_index (verdicts : List PartVerdict) (p : Part) :
    (p.decided verdicts).index = p.index := by
  unfold Part.decided
  split <;> rfl

/-- Deciding a row and deciding its part are the same. -/
theorem PartRow.part_decided {id : Int} {r : PartRow} (h : r.submissionId = id)
    (verdicts : List PartVerdict) :
    (r.decided id verdicts).part = r.part.decided verdicts := by
  unfold PartRow.decided Part.decided
  rw [if_pos h]
  cases hl : PartVerdict.lastFor? verdicts r.index with
  | none => simp [PartRow.part, hl]
  | some d => simp [PartRow.part, hl]

/-- Sorting only looks at indexes. -/
theorem Part.sort_map {f : Part → Part} (hf : ∀ p, (f p).index = p.index) (parts : List Part) :
    Part.sort (parts.map f) = (Part.sort parts).map f := by
  unfold Part.sort
  rw [List.map_mergeSort]
  intro a _ b _
  rw [hf a, hf b]

@[simp] theorem Part.mem_sort {p : Part} {parts : List Part} : p ∈ Part.sort parts ↔ p ∈ parts :=
  List.mem_mergeSort

namespace Store

theorem mem_partsOf {store : Store} {id : Int} {p : Part} :
    p ∈ store.partsOf id ↔ ∃ r ∈ store.parts, r.submissionId = id ∧ r.part = p := by
  simp [partsOf, and_assoc]

/-- The parts of a submission only depend on the part rows that belong to it. -/
theorem partsOf_congr {a b : Store} {id : Int}
    (h : a.parts.filter (·.submissionId == id) = b.parts.filter (·.submissionId == id)) :
    a.partsOf id = b.partsOf id := by
  unfold partsOf
  rw [h]

/-- A row with an index is what the sorted parts show. -/
theorem any_isPart (store : Store) (id index : Int) :
    store.parts.any (isPart id index) = (store.partsOf id).any (·.index == index) := by
  rw [Bool.eq_iff_iff, List.any_eq_true, List.any_eq_true]
  constructor
  · rintro ⟨r, hr, hp⟩
    obtain ⟨hid, hindex⟩ : r.submissionId = id ∧ r.index = index := by simpa [isPart] using hp
    exact ⟨r.part, mem_partsOf.mpr ⟨r, hr, hid, rfl⟩, by simp [PartRow.part, hindex]⟩
  · rintro ⟨p, hp, hindex⟩
    obtain ⟨r, hr, hid, rfl⟩ := mem_partsOf.mp hp
    exact ⟨r, hr, by simpa [isPart, hid, PartRow.part] using hindex⟩

theorem row?_eq_some {store : Store} {id : Int} {r : SubmissionRow} (h : store.row? id = some r) :
    r ∈ store.submissions ∧ r.id = id :=
  ⟨List.mem_of_find?_eq_some h, by simpa using List.find?_some h⟩

theorem mapError_eq_ok_iff {ε ε' : Type} {f : ε → ε'} {x : Except ε α} {a : α} :
    x.mapError f = .ok a ↔ x = .ok a := by
  cases x <;> simp [Except.mapError]

/-- In an open store reading succeeds exactly when there is a row that can be read. -/
theorem get_eq_ok_iff {store : Store} {id : Int} {s : Submission} :
    store.get id = .ok s ↔
      store.isOpen = true ∧ ∃ r, store.row? id = some r ∧ r.Readable ∧
        r.submission (store.partsOf id) = s := by
  unfold get
  cases hopen : store.isOpen with
  | false => simp
  | true =>
      cases hrow : store.row? id with
      | none => simp
      | some r =>
          simp [mapError_eq_ok_iff, SubmissionRow.submission?_eq_ok_iff]

theorem get_eq_noSubmission_iff {store : Store} {id : Int} :
    store.get id = .error (.noSubmission id) ↔ store.isOpen = true ∧ store.row? id = none := by
  unfold get
  cases store.isOpen with
  | false => simp
  | true =>
      cases store.row? id with
      | none => simp
      | some r => cases hread : r.submission? (store.partsOf id) <;> simp [hread, Except.mapError]

/-- A store of which every row can be read. -/
def Readable (store : Store) : Prop := ∀ r ∈ store.submissions, r.Readable

theorem Readable.row {store : Store} (h : store.Readable) {id : Int} {r : SubmissionRow}
    (hrow : store.row? id = some r) : r.Readable :=
  h r (row?_eq_some hrow).1

/-! ## Part verdicts in sequence -/

@[simp] theorem lastFor?_nil (index : Int) : PartVerdict.lastFor? [] index = none := rfl

theorem lastFor?_cons (d : PartVerdict) (rest : List PartVerdict) (index : Int) :
    PartVerdict.lastFor? (d :: rest) index =
      (PartVerdict.lastFor? rest index).or (if d.index = index then some d else none) := by
  unfold PartVerdict.lastFor?
  by_cases h : d.index = index
  · simp only [List.filter_cons, beq_iff_eq, h, if_true, List.getLast?_cons]
    cases (rest.filter (·.index == index)).getLast? <;> rfl
  · simp [h]

theorem lastFor?_of_not_mem {verdicts : List PartVerdict} {index : Int}
    (h : index ∉ verdicts.map PartVerdict.index) : PartVerdict.lastFor? verdicts index = none := by
  have hnone : verdicts.filter (·.index == index) = [] := by
    rw [List.filter_eq_nil_iff]
    intro d hd heq
    exact h (List.mem_map.mpr ⟨d, hd, by simpa using heq⟩)
  rw [PartVerdict.lastFor?, hnone]
  rfl

/-- A later verdict for the same index overwrites an earlier one. -/
theorem decided_cons (id : Int) (d : PartVerdict) (rest : List PartVerdict) (r : PartRow) :
    r.decided id (d :: rest) = (r.decided id [d]).decided id rest := by
  by_cases hid : r.submissionId = id
  · unfold PartRow.decided
    rw [lastFor?_cons, lastFor?_cons d []]
    by_cases hindex : d.index = r.index <;>
      cases hl : PartVerdict.lastFor? rest r.index <;>
        simp [hid, hindex, hl]
  · rw [PartRow.decided_of_ne hid, PartRow.decided_of_ne hid, PartRow.decided_of_ne hid]

theorem setPart_eq_map (id : Int) (d : PartVerdict) (rows : List PartRow) :
    setPart id d rows = rows.map (PartRow.decided id [d]) := by
  unfold setPart
  apply List.map_congr_left
  intro r _
  unfold PartRow.decided
  rw [lastFor?_cons]
  by_cases hid : r.submissionId = id <;> by_cases hindex : d.index = r.index
  · simp [isPart, hid, hindex]
  · have hne : r.index ≠ d.index := Ne.symm hindex
    simp [isPart, hid, hindex, hne]
  · simp [isPart, hid]
  · simp [isPart, hid]

/-- Verdicts neither add nor remove parts. -/
theorem any_isPart_decided (id : Int) (verdicts : List PartVerdict) (rows : List PartRow)
    (other index : Int) :
    (rows.map (PartRow.decided id verdicts)).any (isPart other index) =
      rows.any (isPart other index) := by
  rw [List.any_map]
  congr 1
  funext r
  simp [isPart]

/-- When every index is there, verdicts in sequence are one map over the rows. -/
theorem setParts_of_known {id : Int} {verdicts : List PartVerdict} {rows : List PartRow}
    (known : ∀ d ∈ verdicts, rows.any (isPart id d.index) = true) :
    setParts id rows verdicts = .ok (rows.map (PartRow.decided id verdicts)) := by
  induction verdicts generalizing rows with
  | nil =>
      have same : PartRow.decided id [] = fun r => r := by
        funext r
        simp [PartRow.decided]
      simp [setParts, same]
  | cons d rest ih =>
      have hd : rows.any (isPart id d.index) = true := known d List.mem_cons_self
      -- the first verdict moves no index, so the others still find theirs
      have hrest : ∀ e ∈ rest, (setPart id d rows).any (isPart id e.index) = true := by
        intro e he
        rw [setPart_eq_map, any_isPart_decided]
        exact known e (List.mem_cons_of_mem d he)
      simp only [setParts, hd, if_true]
      rw [ih hrest, setPart_eq_map, List.map_map]
      congr 1
      apply List.map_congr_left
      intro r _
      exact (decided_cons id d rest r).symm

/-- Verdicts in sequence succeed only when every index is there. -/
theorem known_of_setParts {id : Int} {verdicts : List PartVerdict} {rows rows' : List PartRow}
    (h : setParts id rows verdicts = .ok rows') :
    ∀ d ∈ verdicts, rows.any (isPart id d.index) = true := by
  induction verdicts generalizing rows with
  | nil => simp
  | cons d rest ih =>
      simp only [setParts] at h
      split at h
      · rename_i hd
        intro e he
        rcases List.mem_cons.mp he with rfl | he
        · exact hd
        · have hrest := ih h e he
          rwa [setPart_eq_map, any_isPart_decided] at hrest
      · cases h

/-- Part verdicts fail only by an index that is not there. -/
theorem setParts_error {id : Int} {verdicts : List PartVerdict} {rows : List PartRow}
    {e : StoreError} (h : setParts id rows verdicts = .error e) :
    ∃ d ∈ verdicts, rows.any (isPart id d.index) = false ∧ e = .noPart id d.index := by
  induction verdicts generalizing rows with
  | nil => simp [setParts] at h
  | cons d rest ih =>
      simp only [setParts] at h
      split at h
      · obtain ⟨d', hmem, hmissing, heq⟩ := ih h
        rw [setPart_eq_map, any_isPart_decided] at hmissing
        exact ⟨d', List.mem_cons_of_mem d hmem, hmissing, heq⟩
      · rename_i hmissing
        injection h with h
        exact ⟨d, List.mem_cons_self, by simpa using hmissing, h.symm⟩

/-! ## Reading what was written -/

section Reading

variable (store : Store) (now : Timestamp) (id : Int) (v : Verdict)

@[simp] theorem reviewed_isOpen : (store.reviewed now id v).isOpen = store.isOpen := rfl

@[simp] theorem reviewed_lastId : (store.reviewed now id v).lastId = store.lastId := rfl

/-- The parts of the submission, each decided. -/
theorem partsOf_decided :
    { store with parts := store.parts.map (PartRow.decided id v.partList) }.partsOf id =
      (store.partsOf id).map (Part.decided v.partList) := by
  unfold partsOf
  rw [← Part.sort_map (Part.decided_index v.partList), List.filter_map, List.map_map, List.map_map]
  have hfilter : (store.parts.filter
        ((fun r => r.submissionId == id) ∘ PartRow.decided id v.partList)) =
      store.parts.filter (·.submissionId == id) :=
    List.filter_congr (by simp)
  rw [hfilter]
  congr 1
  apply List.map_congr_left
  intro r hr
  exact PartRow.part_decided (by simpa using (List.mem_filter.mp hr).2) v.partList

theorem partsOf_reviewed :
    (store.reviewed now id v).partsOf id = (store.partsOf id).map (Part.decided v.partList) :=
  partsOf_decided store id v

theorem partsOf_reviewed_of_ne {other : Int} (h : other ≠ id) :
    (store.reviewed now id v).partsOf other = store.partsOf other := by
  apply partsOf_congr
  simp only [reviewed, List.filter_map]
  have hfilter : store.parts.filter
        ((fun r => r.submissionId == other) ∘ PartRow.decided id v.partList) =
      store.parts.filter (·.submissionId == other) :=
    List.filter_congr (by simp)
  rw [hfilter]
  conv => rhs; rw [← List.map_id (store.parts.filter (·.submissionId == other))]
  apply List.map_congr_left
  intro r hr
  have hother : r.submissionId = other := by simpa using (List.mem_filter.mp hr).2
  exact PartRow.decided_of_ne (by rw [hother]; exact h) v.partList

/-- The status to which an update leads. -/
def statusAfter : Status :=
  if v.hasParts then Status.ofParts ((store.partsOf id).map (Part.decided v.partList))
  else v.status

theorem reviewed_submissions :
    (store.reviewed now id v).submissions =
      store.submissions.map (SubmissionRow.decided id (store.statusAfter id v) now v) := by
  simp only [reviewed, statusAfter, partsOf_decided]

theorem row?_reviewed (other : Int) :
    (store.reviewed now id v).row? other =
      (store.row? other).map (SubmissionRow.decided id (store.statusAfter id v) now v) := by
  unfold row?
  rw [reviewed_submissions, List.find?_map]
  congr 2
  funext r
  simp

theorem row?_reviewed_of_ne {other : Int} (h : other ≠ id) :
    (store.reviewed now id v).row? other = store.row? other := by
  rw [row?_reviewed]
  cases hrow : store.row? other with
  | none => rfl
  | some r =>
      have hne : r.id ≠ id := (row?_eq_some hrow).2.symm ▸ h
      rw [Option.map_some, SubmissionRow.decided_of_ne hne]

/-- Deciding a row and deciding its submission are the same, but for a time that cannot be read. -/
theorem submission_decided_at {id : Int} {r : SubmissionRow} (h : r.id = id) (parts : List Part)
    (status : Status)
    (hstatus : status =
      if v.hasParts then Status.ofParts (parts.map (Part.decided v.partList)) else v.status) :
    (r.decided id status now v).submission (parts.map (Part.decided v.partList)) =
      { (r.submission parts).reviewed now v with updatedAt := .ofColumn now.column } := by
  have hfeedback :
      Column.text (if v.hasParts ∨ v.feedback = "" then r.feedback else some v.feedback) =
        if v.hasParts ∨ v.feedback = "" then Column.text r.feedback else v.feedback := by
    split <;> rfl
  unfold SubmissionRow.decided
  rw [if_pos h]
  simp only [SubmissionRow.submission, Submission.reviewed, Submission.partList, hfeedback,
    Column.text_ofText, hstatus, Option.getD_some]

theorem submission_decided (now : Moment) {id : Int} {r : SubmissionRow} (h : r.id = id)
    (parts : List Part) (status : Status)
    (hstatus : status =
      if v.hasParts then Status.ofParts (parts.map (Part.decided v.partList)) else v.status) :
    (r.decided id status now v).submission (parts.map (Part.decided v.partList)) =
      (r.submission parts).reviewed now v := by
  rw [submission_decided_at now v h parts status hstatus, now.kept.ofColumn_column]
  rfl

/-- The row that was written can be read when its creation time can, and the time of the update. -/
theorem readable_decided {id : Int} {r : SubmissionRow} (h : r.id = id) (status : Status)
    (now : Moment) (hcreated : (Timestamp.ofColumn? r.createdAt).isSome) :
    (r.decided id status now v).Readable := by
  unfold SubmissionRow.decided
  rw [if_pos h]
  exact ⟨hcreated, by rw [now.kept.ofColumn?_column]; rfl⟩

variable {store id}

/-- A store can be read after an update when it could be before. -/
theorem Readable.reviewed (h : store.Readable) (now : Moment) (id : Int) :
    (store.reviewed now id v).Readable := by
  intro r hr
  rw [reviewed_submissions] at hr
  obtain ⟨old, hold, rfl⟩ := List.mem_map.mp hr
  by_cases hid : old.id = id
  · exact readable_decided v hid _ now (h old hold).createdAt
  · rw [SubmissionRow.decided_of_ne hid]
    exact h old hold

/-- The submission after an update is the updated submission. -/
theorem get_reviewed (now : Moment) {s : Submission} (h : store.get id = .ok s) :
    (store.reviewed now id v).get id = .ok (s.reviewed now v) := by
  obtain ⟨hopen, r, hrow, hread, rfl⟩ := get_eq_ok_iff.mp h
  have hid : r.id = id := (row?_eq_some hrow).2
  refine get_eq_ok_iff.mpr ⟨hopen, r.decided id (store.statusAfter id v) now v, ?_,
    readable_decided v hid _ now hread.createdAt, ?_⟩
  · rw [row?_reviewed, hrow]
    rfl
  · rw [partsOf_reviewed]
    exact submission_decided v now hid (store.partsOf id) _ rfl

/-- An update leaves every other submission as it was. -/
theorem get_reviewed_of_ne {other : Int} (h : other ≠ id) :
    (store.reviewed now id v).get other = store.get other := by
  unfold get
  rw [reviewed_isOpen, row?_reviewed_of_ne store now id v h,
    partsOf_reviewed_of_ne store now id v h]

end Reading

/-- The time at which an update is written shows in that time only. -/
theorem undated_reviewed (store : Store) (now now' : Timestamp) (id : Int) (v : Verdict) :
    (store.reviewed now id v).undated id = (store.reviewed now' id v).undated id := by
  have hrows : (store.reviewed now id v).submissions.map (SubmissionRow.undated id) =
      (store.reviewed now' id v).submissions.map (SubmissionRow.undated id) := by
    rw [reviewed_submissions, reviewed_submissions, List.map_map, List.map_map]
    exact List.map_congr_left fun r _ => SubmissionRow.undated_decided id _ now now' v r
  unfold undated
  rw [hrows]
  rfl

/-! ## Writing -/

/-- A commit of part verdicts that are all there, on a submission that is there. -/
theorem commit_of_known {store : Store} {id : Int} {v : Verdict} (now : Timestamp)
    (known : ∀ d ∈ v.partList, store.parts.any (isPart id d.index) = true)
    (hrow : (store.row? id).isSome) : store.commit now id v = .ok (store.reviewed now id v) := by
  have hsome : (store.row? id).isNone = false := by simpa using hrow
  unfold commit
  rw [setParts_of_known known]
  simp only [hsome, Bool.false_eq_true, if_false]
  unfold reviewed
  congr 2
  unfold setRow
  apply List.map_congr_left
  intro r _
  unfold SubmissionRow.decided
  by_cases hid : r.id = id
  · simp only [hid, if_true]
    congr 1
    -- only the feedback differs in form: an empty text is an empty column, which keeps the old one
    by_cases hparts : v.hasParts = true
    · simp [hparts, Column.ofText]
    · by_cases hfeedback : v.feedback = "" <;> simp [hparts, hfeedback, Column.ofText]
  · simp only [hid, if_false]

/-- Whatever is committed is written in full. -/
theorem reviewed_of_commit {store after : Store} {now : Timestamp} {id : Int} {v : Verdict}
    (h : store.commit now id v = .ok after) : store.reviewed now id v = after := by
  unfold commit at h
  cases hset : setParts id store.parts v.partList with
  | error e => simp [hset] at h
  | ok parts =>
      cases hrow : store.row? id with
      | none => simp [hset, hrow] at h
      | some r =>
          have hsome : (store.row? id).isSome := by rw [hrow]; rfl
          have hcommit := commit_of_known now (known_of_setParts hset) hsome
          unfold commit at hcommit
          exact Except.ok.inj (hcommit.symm.trans h)

/-- A review of what is there is written in full, and then read. -/
theorem review_of_known {store : Store} {id : Int} {v : Verdict} (now : Timestamp)
    (hopen : store.isOpen = true) (hrow : (store.row? id).isSome)
    (known : ∀ d ∈ v.partList, store.parts.any (isPart id d.index) = true) :
    store.review now id v = (store.reviewed now id v, (store.reviewed now id v).get id) := by
  unfold review
  rw [commit_of_known now known hrow]
  simp only [hopen, Bool.not_true, Bool.false_eq_true, if_false]

/-- An update with which nothing is wrong only names parts that are there. -/
theorem known_of_no_problem {store : Store} {id : Int} {v : Verdict} {s : Submission}
    (h : store.get id = .ok s) (hfind : Problem.find s v = []) :
    ∀ d ∈ v.partList, store.parts.any (isPart id d.index) = true := by
  obtain ⟨-, r, -, -, rfl⟩ := get_eq_ok_iff.mp h
  intro d hd
  rw [any_isPart, List.any_eq_true]
  have hjudged := ((Problem.find_eq_nil_iff _ v).mp hfind).2
  split at hjudged
  · obtain ⟨⟨p, hp, hindex⟩, -⟩ := hjudged.2 d hd
    exact ⟨p, hp, by simp [hindex]⟩
  · -- a verdict on the whole names no parts
    have hnone : v.partList = [] := by simpa [Verdict.hasParts] using hjudged.1
    rw [hnone] at hd
    exact absurd hd List.not_mem_nil

/-- **An update with which nothing is wrong is written in full**, and read back. -/
theorem review_of_no_problem {store : Store} {id : Int} {v : Verdict} {s : Submission}
    (now : Moment) (h : store.get id = .ok s) (hfind : Problem.find s v = []) :
    store.review now id v = (store.reviewed now id v, .ok (s.reviewed now v)) := by
  obtain ⟨hopen, r, hrow, -⟩ := get_eq_ok_iff.mp h
  rw [review_of_known now hopen (by rw [hrow]; rfl) (known_of_no_problem h hfind),
    get_reviewed v now h]

/-- Why a review is refused before anything is written. -/
inductive ReviewRefused (store : Store) (id : Int) (v : Verdict) : StoreError → Prop
  | closed : store.isOpen = false → ReviewRefused store id v (.closed "begin review")
  | noSubmission : store.isOpen = true → store.row? id = none →
      ReviewRefused store id v (.noSubmission id)
  | noPart {d} : store.isOpen = true → d ∈ v.partList →
      store.parts.any (isPart id d.index) = false → ReviewRefused store id v (.noPart id d.index)

/-- An update is written in full or not at all, whatever it says. -/
theorem review_cases (store : Store) (now : Timestamp) (id : Int) (v : Verdict) :
    (∃ e, store.review now id v = (store, .error e) ∧ store.ReviewRefused id v e) ∨
      (store.isOpen = true ∧ (store.row? id).isSome ∧
        (∀ d ∈ v.partList, store.parts.any (isPart id d.index) = true) ∧
        store.review now id v = (store.reviewed now id v, (store.reviewed now id v).get id)) := by
  cases hopen : store.isOpen with
  | false => exact .inl ⟨_, by simp [review, hopen], .closed hopen⟩
  | true =>
      cases hset : setParts id store.parts v.partList with
      | error e =>
          obtain ⟨d, hd, hmissing, rfl⟩ := setParts_error hset
          exact .inl ⟨_, by simp [review, commit, hopen, hset], .noPart hopen hd hmissing⟩
      | ok parts =>
          cases hrow : store.row? id with
          | none =>
              exact .inl ⟨_, by simp [review, commit, hopen, hset, hrow], .noSubmission hopen hrow⟩
          | some r =>
              have hsome : (store.row? id).isSome := by rw [hrow]; rfl
              have known := known_of_setParts hset
              exact .inr ⟨rfl, rfl, known, review_of_known now hopen hsome known⟩

/-- An update of a submission that is not there fails as not found, whatever it says. -/
theorem review_of_no_row {store : Store} {id : Int} (now : Timestamp) (v : Verdict)
    (hopen : store.isOpen = true) (hrow : store.row? id = none) :
    ∃ e, store.review now id v = (store, .error e) ∧ e.isNotFound = true := by
  obtain ⟨e, hreview, hrefused⟩ | ⟨-, hsome, -⟩ := store.review_cases now id v
  · refine ⟨e, hreview, ?_⟩
    cases hrefused with
    | closed hclosed => exact absurd hopen (by rw [hclosed]; decide)
    | noSubmission _ _ => rfl
    | noPart _ _ _ => rfl
  · rw [hrow] at hsome
    cases hsome

end Store
end ReviewQueue
