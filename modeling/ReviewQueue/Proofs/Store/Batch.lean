import Mathlib.Data.Int.Interval
import Mathlib.Data.String.Basic
import ReviewQueue.Proofs.Store.Sound

/-!
# Lists and batches of a store

What a filter admits is listed by the time of creation and, where times are equal, by id; a batch is
what the filter for it admits. A review changes rows in place: it moves none of them and touches
neither their ids nor their times of creation.

* `list_eq_ok_iff`, `list_batch_eq_ok_iff` — what a list shows, and when it can;
* `shown_ordered`, `batch_ordered` — the order of a list;
* `batch_reviewed` — a batch after a review;
* `Sound.row?_of_mem_batch`, `Sound.status_of_mem_batch` — what a batch shows is what is read one
  by one.
-/

namespace ReviewQueue.Store

/-- The rows that a filter admits, in the order in which they are listed. -/
def shown (store : Store) (filter : ListFilter) : List SubmissionRow :=
  (store.submissions.filter filter.admits).mergeSort inOrder

/-- The rows of a batch, in the order in which they are listed. -/
def batch (store : Store) (project batch : String) : List SubmissionRow :=
  (store.submissions.filter (ListFilter.mk project batch .none).admits).mergeSort inOrder

variable {store : Store} {project batchName : String}

/-- Rows that a list can show. -/
def CanList (rows : List SubmissionRow) : Prop :=
  ∀ r ∈ rows, (Timestamp.ofColumn? r.createdAt).isSome

instance (rows : List SubmissionRow) : Decidable (CanList rows) :=
  inferInstanceAs (Decidable (∀ r ∈ rows, (Timestamp.ofColumn? r.createdAt).isSome))

theorem list_eq_ok_iff {filter : ListFilter} {items : List Summary} :
    store.list filter = .ok items ↔
      store.isOpen = true ∧ CanList (store.shown filter) ∧
        (store.shown filter).map SubmissionRow.summary = items := by
  unfold list
  cases store.isOpen with
  | false => simp
  | true =>
      simp only [Bool.not_true, Bool.false_eq_true, if_false, mapError_eq_ok_iff, true_and]
      exact mapM_eq_ok_iff fun _ _ => SubmissionRow.summary?_eq_ok_iff

theorem list_batch_eq_ok_iff {items : List Summary} :
    store.list ⟨project, batchName, .none⟩ = .ok items ↔
      store.isOpen = true ∧ CanList (store.batch project batchName) ∧
        (store.batch project batchName).map SubmissionRow.summary = items :=
  list_eq_ok_iff

theorem Readable.canList (h : store.Readable) (filter : ListFilter) :
    CanList (store.shown filter) :=
  fun r hr => (h r (List.mem_filter.mp (List.mem_mergeSort.mp hr)).1).createdAt

theorem attachmentsOf_eq_ok_iff {id : Int} {files : List Attachment} :
    store.attachmentsOf id = .ok files ↔
      store.isOpen = true ∧
        (∀ r ∈ (store.attachments.filter (·.submissionId == id)).mergeSort attachedInOrder,
          (Timestamp.ofColumn? r.createdAt).isSome) ∧
        ((store.attachments.filter (·.submissionId == id)).mergeSort attachedInOrder).map
          AttachmentRow.attachment = files := by
  unfold attachmentsOf
  cases store.isOpen with
  | false => simp
  | true =>
      simp only [Bool.not_true, Bool.false_eq_true, if_false, mapError_eq_ok_iff, true_and]
      exact mapM_eq_ok_iff fun _ _ => AttachmentRow.attachment?_eq_ok_iff

theorem mem_shown {filter : ListFilter} {r : SubmissionRow} :
    r ∈ store.shown filter ↔ r ∈ store.submissions ∧ filter.admits r = true := by
  rw [shown, List.mem_mergeSort, List.mem_filter]

theorem mem_batch {r : SubmissionRow} :
    r ∈ store.batch project batchName ↔
      r ∈ store.submissions ∧ (ListFilter.mk project batchName .none).admits r = true :=
  mem_shown

/-! ## The order -/

theorem inOrder_iff (a b : SubmissionRow) :
    inOrder a b = true ↔
      a.createdAt < b.createdAt ∨ a.createdAt = b.createdAt ∧ a.id ≤ b.id := by
  simp [inOrder]

theorem inOrder_trans (a b c : SubmissionRow) (hab : inOrder a b = true)
    (hbc : inOrder b c = true) : inOrder a c = true := by
  rw [inOrder_iff] at *
  rcases hab with hab | ⟨hab, hid⟩
  · rcases hbc with hbc | ⟨hbc, -⟩
    · exact .inl (hab.trans hbc)
    · exact .inl (hbc ▸ hab)
  · rcases hbc with hbc | ⟨hbc, hid'⟩
    · exact .inl (hab ▸ hbc)
    · exact .inr ⟨hab.trans hbc, hid.trans hid'⟩

theorem inOrder_total (a b : SubmissionRow) : (inOrder a b || inOrder b a) = true := by
  rw [Bool.or_eq_true, inOrder_iff, inOrder_iff]
  rcases lt_trichotomy a.createdAt b.createdAt with h | h | h
  · exact .inl (.inl h)
  · rcases le_total a.id b.id with hid | hid
    · exact .inl (.inr ⟨h, hid⟩)
    · exact .inr (.inr ⟨h.symm, hid⟩)
  · exact .inr (.inl h)

/-- The ids that are listed are distinct. -/
theorem nodup_shown (h : (store.submissions.map SubmissionRow.id).Nodup) (filter : ListFilter) :
    ((store.shown filter).map SubmissionRow.id).Nodup := by
  have hperm : ((store.shown filter).map SubmissionRow.id).Perm
      ((store.submissions.filter filter.admits).map SubmissionRow.id) :=
    (List.mergeSort_perm _ _).map _
  exact hperm.nodup_iff.mpr (h.sublist (List.filter_sublist.map _))

/-- A list is ordered by the time of creation, and then by id. -/
theorem shown_ordered (h : (store.submissions.map SubmissionRow.id).Nodup) (filter : ListFilter) :
    (store.shown filter).Pairwise fun a b =>
      a.createdAt < b.createdAt ∨ a.createdAt = b.createdAt ∧ a.id < b.id := by
  have hsorted := List.pairwise_mergeSort inOrder_trans inOrder_total
    (store.submissions.filter filter.admits)
  have hnodup := List.pairwise_map.mp (nodup_shown h filter)
  refine (hsorted.and hnodup).imp ?_
  rintro a b ⟨horder, hne⟩
  rcases (inOrder_iff a b).mp horder with hlt | ⟨heq, hle⟩
  · exact .inl hlt
  · exact .inr ⟨heq, lt_of_le_of_ne hle hne⟩

/-- The ids of a batch are distinct. -/
theorem Sound.nodup_batch (h : store.Sound) (project batchName : String) :
    ((store.batch project batchName).map SubmissionRow.id).Nodup :=
  nodup_shown h.ids _

/-- A batch is ordered by the time of creation, and then by id. -/
theorem Sound.batch_ordered (h : store.Sound) (project batchName : String) :
    (store.batch project batchName).Pairwise fun a b =>
      a.createdAt < b.createdAt ∨ a.createdAt = b.createdAt ∧ a.id < b.id :=
  shown_ordered h.ids _

/-- A batch is not longer than ids can count. -/
theorem Sound.fitsWord_length (h : store.Sound) (project batchName : String) :
    fitsWord (store.batch project batchName).length = true := by
  have hids : ∀ id ∈ (store.batch project batchName).map SubmissionRow.id,
      id ∈ Finset.Icc 1 wordMax := by
    intro id hid
    obtain ⟨r, hr, rfl⟩ := List.mem_map.mp hid
    have hrow := h.rows r (mem_batch.mp hr).1
    have hfits := hrow.id
    have hpos := hrow.positive
    simp only [fitsWord, Bool.and_eq_true, decide_eq_true_eq] at hfits
    exact Finset.mem_Icc.mpr ⟨hpos, hfits.2⟩
  have hcard : (store.batch project batchName).length ≤ (Finset.Icc 1 wordMax).card := by
    rw [← List.length_map SubmissionRow.id,
      ← List.toFinset_card_of_nodup (h.nodup_batch project batchName)]
    exact Finset.card_le_card fun id hid => hids id (List.mem_toFinset.mp hid)
  rw [Int.card_Icc] at hcard
  rw [fitsWord, Bool.and_eq_true, decide_eq_true_eq, decide_eq_true_eq]
  unfold wordMin wordMax at *
  omega

/-! ## Reading and reviewing -/

theorem row?_of_mem (hids : (store.submissions.map SubmissionRow.id).Nodup) {r : SubmissionRow}
    (hr : r ∈ store.submissions) : store.row? r.id = some r := by
  unfold row?
  generalize store.submissions = rows at hr hids
  induction rows with
  | nil => cases hr
  | cons first rest ih =>
      obtain ⟨hnot, hrest⟩ := List.nodup_cons.mp hids
      rcases List.mem_cons.mp hr with rfl | hmem
      · exact List.find?_cons_of_pos (by simp)
      · -- the first row has another id, and the search goes on behind it
        have hne : first.id ≠ r.id := fun heq => hnot (heq ▸ List.mem_map_of_mem hmem)
        rw [List.find?_cons_of_neg (by simpa using hne)]
        exact ih hmem hrest

theorem Sound.row?_of_mem_batch (h : store.Sound) {r : SubmissionRow}
    (hr : r ∈ store.batch project batchName) : store.row? r.id = some r :=
  row?_of_mem h.ids (mem_batch.mp hr).1

/-- A list shows the status that a submission has. -/
theorem Sound.status_of_mem_batch (h : store.Sound) {r : SubmissionRow}
    (hr : r ∈ store.batch project batchName) {s : Submission} (hget : store.get r.id = .ok s) :
    r.summary.status = s.status := by
  obtain ⟨-, found, hrow, -, rfl⟩ := get_eq_ok_iff.mp hget
  obtain rfl := Option.some.inj ((h.row?_of_mem_batch hr).symm.trans hrow)
  rfl

theorem decided_createdAt (id : Int) (status : Status) (now : Timestamp) (v : Verdict)
    (r : SubmissionRow) : (r.decided id status now v).createdAt = r.createdAt := by
  unfold SubmissionRow.decided
  split <;> rfl

/-- A review changes the rows of a batch in place. -/
theorem batch_reviewed (store : Store) (project batchName : String) (now : Timestamp) (id : Int)
    (v : Verdict) :
    (store.reviewed now id v).batch project batchName =
      (store.batch project batchName).map
        (SubmissionRow.decided id (store.statusAfter id v) now v) := by
  -- the filter of a batch looks at no column that a review writes
  have hadmits : (ListFilter.mk project batchName .none).admits ∘
      SubmissionRow.decided id (store.statusAfter id v) now v =
        (ListFilter.mk project batchName .none).admits := by
    funext r
    simp only [Function.comp_apply, ListFilter.admits, SubmissionRow.decided]
    split <;> rfl
  unfold batch
  rw [reviewed_submissions, List.filter_map, hadmits, List.map_mergeSort]
  intro a _ b _
  simp only [inOrder, SubmissionRow.decided_id, decided_createdAt]

/-- A review keeps the ids of a batch, and their order. -/
theorem ids_reviewed (store : Store) (project batchName : String) (now : Timestamp) (id : Int)
    (v : Verdict) :
    ((store.reviewed now id v).batch project batchName).map SubmissionRow.id =
      (store.batch project batchName).map SubmissionRow.id := by
  rw [batch_reviewed, List.map_map]
  exact List.map_congr_left fun r _ => SubmissionRow.decided_id id _ now v r

end ReviewQueue.Store
