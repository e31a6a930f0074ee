import ReviewQueue.Proofs.Store.Reviewed

/-!
# Creating, deleting and attaching

What each of the other operations can do to a store, said once: `Created`, `Deleted` and `Attached`
hold of every successful call, with the guards it passed. Ids are handed out in ascending order
(`Bounded`), so that a create touches no submission that is there, and an id that is gone does not
come back.
-/

namespace ReviewQueue.Store

/-- A create that succeeded. -/
structure Created (store : Store) (now : Timestamp) (s : Submission) (after : Store)
    (new : Submission) : Prop where
  isOpen : store.isOpen = true
  distinct : Part.repeatedIndex? [] s.partList = none
  new_eq : new = store.prepared now s
  lastId : after.lastId = store.lastId + 1
  submissions : after.submissions = store.submissions ++ [.ofSubmission new]
  parts : after.parts = store.parts ++ s.partList.map (.ofPart (store.lastId + 1))
  attachments : after.attachments = store.attachments
  stays : after.isOpen = true

/-- A delete that succeeded. -/
structure Deleted (store : Store) (id : Int) (after : Store) : Prop where
  isOpen : store.isOpen = true
  found : (store.row? id).isSome
  lastId : after.lastId = store.lastId
  submissions : after.submissions = store.submissions.filter (·.id != id)
  parts : after.parts = store.parts.filter (·.submissionId != id)
  attachments : after.attachments = store.attachments.filter (·.submissionId != id)
  stays : after.isOpen = true

/-- An attachment that was stored. -/
structure Attached (store : Store) (new : Attachment) (after : Store) : Prop where
  isOpen : store.isOpen = true
  unused : store.attachments.any (·.id == new.id) = false
  found : (store.row? new.submissionId).isSome
  lastId : after.lastId = store.lastId
  submissions : after.submissions = store.submissions
  parts : after.parts = store.parts
  attachments : after.attachments = store.attachments ++ [.ofAttachment new]
  stays : after.isOpen = true

theorem created_of_ok {store after : Store} {now : Timestamp} {s new : Submission}
    (h : store.create now s = .ok (after, new)) : store.Created now s after new := by
  unfold create at h
  cases hopen : store.isOpen with
  | false => simp [hopen] at h
  | true =>
      cases hrepeated : Part.repeatedIndex? [] s.partList with
      | some index => simp [hopen, hrepeated] at h
      | none =>
          simp only [hopen, hrepeated, Bool.not_true, Bool.false_eq_true, if_false,
            Except.ok.injEq, Prod.mk.injEq] at h
          obtain ⟨rfl, rfl⟩ := h
          exact ⟨hopen, hrepeated, rfl, rfl, rfl, rfl, rfl, rfl⟩

theorem deleted_of_ok {store after : Store} {id : Int} (h : store.delete id = .ok after) :
    store.Deleted id after := by
  unfold delete at h
  cases hopen : store.isOpen with
  | false => simp [hopen] at h
  | true =>
      cases hrow : store.row? id with
      | none => simp [hopen, hrow] at h
      | some r =>
          simp only [hopen, hrow, Bool.not_true, Bool.false_eq_true, if_false,
            Option.isNone_some, Except.ok.injEq] at h
          subst h
          exact ⟨hopen, by rw [hrow]; rfl, rfl, rfl, rfl, rfl, rfl⟩

theorem attached_of_ok {store after : Store} {now : Timestamp} {fresh : String}
    {a new : Attachment} (h : store.attach now fresh a = .ok (after, new)) :
    store.Attached new after := by
  unfold attach at h
  cases hopen : store.isOpen with
  | false => simp [hopen] at h
  | true =>
      -- name the attachment as it is stored, before its fields are looked at
      simp -zeta only [hopen, Bool.not_true, Bool.false_eq_true, if_false] at h
      extract_lets stored at h
      split at h
      · cases h
      · rename_i hunused
        split at h
        · cases h
        · rename_i hfound
          simp only [Except.ok.injEq, Prod.mk.injEq] at h
          obtain ⟨rfl, rfl⟩ := h
          exact ⟨hopen, by simpa using hunused,
            by simpa [Option.isSome_iff_ne_none] using hfound, rfl, rfl, rfl, rfl, rfl⟩

/-! ## Reading after an operation -/

/-- Reading looks at the two tables and at whether the store is open. -/
theorem get_congr {a b : Store} {id : Int} (hopen : a.isOpen = b.isOpen)
    (hrow : a.row? id = b.row? id) (hparts : a.partsOf id = b.partsOf id) :
    a.get id = b.get id := by
  unfold get
  rw [hopen, hrow, hparts]

@[simp] theorem part_ofPart (id : Int) (p : Part) : (PartRow.ofPart id p).part = p := by
  simp [PartRow.ofPart, PartRow.part]

section Created

variable {store after : Store} {now : Timestamp} {s new : Submission}

theorem Created.new_id (h : store.Created now s after new) : new.id = store.lastId + 1 := by
  rw [h.new_eq]
  rfl

theorem Created.createdAt_eq (h : store.Created now s after new) :
    new.createdAt = if s.createdAt.isZero then now else s.createdAt := by
  rw [h.new_eq]
  rfl

theorem Created.updatedAt_eq (h : store.Created now s after new) : new.updatedAt = now := by
  rw [h.new_eq]
  rfl

/-- The times of a new submission are among those that it was given. -/
theorem Created.isKept (h : store.Created now s after new) (hnow : now.IsKept)
    (hcreated : s.createdAt.IsKept) : new.createdAt.IsKept ∧ new.updatedAt.IsKept := by
  rw [h.createdAt_eq, h.updatedAt_eq]
  split
  · exact ⟨hnow, hnow⟩
  · exact ⟨hcreated, hnow⟩

/-- The parts of an older submission are what they were. -/
theorem Created.partsOf_of_ne (h : store.Created now s after new) {id : Int}
    (hne : id ≠ store.lastId + 1) : after.partsOf id = store.partsOf id := by
  apply partsOf_congr
  rw [h.parts, List.filter_append]
  have hnone : (s.partList.map (PartRow.ofPart (store.lastId + 1))).filter
      (·.submissionId == id) = [] := by
    rw [List.filter_eq_nil_iff]
    intro r hr
    obtain ⟨p, -, rfl⟩ := List.mem_map.mp hr
    simpa [PartRow.ofPart] using Ne.symm hne
  rw [hnone, List.append_nil]

/-- A create touches no older submission. -/
theorem Created.get_of_ne (h : store.Created now s after new) {id : Int}
    (hne : id ≠ store.lastId + 1) : after.get id = store.get id := by
  refine get_congr (by rw [h.stays, h.isOpen]) ?_ (h.partsOf_of_ne hne)
  unfold row?
  rw [h.submissions, List.find?_append]
  have hnew :
      ([SubmissionRow.ofSubmission new] : List SubmissionRow).find? (·.id == id) = none := by
    simpa [SubmissionRow.ofSubmission, h.new_id] using Ne.symm hne
  rw [hnew, Option.or_none]

end Created

section Deleted

variable {store after : Store} {id : Int}

/-- A deleted submission is gone. -/
theorem Deleted.row?_self (h : store.Deleted id after) : after.row? id = none := by
  unfold row?
  rw [h.submissions, List.find?_eq_none]
  intro r hr
  simpa using (List.mem_filter.mp hr).2

/-- The parts of another submission are what they were. -/
theorem Deleted.partsOf_of_ne (h : store.Deleted id after) {other : Int} (hne : other ≠ id) :
    after.partsOf other = store.partsOf other := by
  apply partsOf_congr
  rw [h.parts, List.filter_filter]
  apply List.filter_congr
  intro r _
  by_cases hr : r.submissionId = other
  · simp [hr, hne]
  · simp [hr]

/-- A delete touches no other submission. -/
theorem Deleted.get_of_ne (h : store.Deleted id after) {other : Int} (hne : other ≠ id) :
    after.get other = store.get other := by
  refine get_congr (by rw [h.stays, h.isOpen]) ?_ (h.partsOf_of_ne hne)
  unfold row?
  rw [h.submissions, List.find?_filter]
  congr 1
  funext r
  by_cases hr : r.id = other
  · simp [hr, hne]
  · simp [hr]

end Deleted

/-- Attaching changes nothing that reading a submission shows. -/
theorem Attached.get_eq {store after : Store} {new : Attachment} (h : store.Attached new after)
    (id : Int) : after.get id = store.get id := by
  refine get_congr (by rw [h.stays, h.isOpen]) ?_ ?_
  · unfold row?
    rw [h.submissions]
  · apply partsOf_congr
    rw [h.parts]

/-! ## Ids -/

/-- Every id in use was handed out. -/
structure Bounded (store : Store) : Prop where
  rows : ∀ r ∈ store.submissions, r.id ≤ store.lastId
  parts : ∀ p ∈ store.parts, p.submissionId ≤ store.lastId

theorem bounded_empty : Bounded {} :=
  ⟨fun _ h => absurd h List.not_mem_nil, fun _ h => absurd h List.not_mem_nil⟩

theorem Bounded.id_le {store : Store} (h : store.Bounded) {id : Int} {s : Submission}
    (hget : store.get id = .ok s) : id ≤ store.lastId := by
  obtain ⟨-, r, hrow, -⟩ := get_eq_ok_iff.mp hget
  obtain ⟨hmem, rfl⟩ := row?_eq_some hrow
  exact h.rows r hmem

theorem Bounded.reviewed {store : Store} (h : store.Bounded) (now : Timestamp) (id : Int)
    (v : Verdict) : (store.reviewed now id v).Bounded := by
  refine ⟨?_, ?_⟩
  · intro r hr
    rw [reviewed_submissions] at hr
    obtain ⟨old, hold, rfl⟩ := List.mem_map.mp hr
    simpa using h.rows old hold
  · intro p hp
    obtain ⟨old, hold, rfl⟩ := List.mem_map.mp hp
    simpa using h.parts old hold

theorem Bounded.created {store after : Store} {now : Timestamp} {s new : Submission}
    (h : store.Bounded) (hc : store.Created now s after new) : after.Bounded := by
  refine ⟨?_, ?_⟩
  · intro r hr
    rw [hc.submissions] at hr
    rw [hc.lastId]
    rcases List.mem_append.mp hr with hr | hr
    · have := h.rows r hr
      omega
    · rw [List.mem_singleton.mp hr]
      simp [SubmissionRow.ofSubmission, hc.new_id]
  · intro p hp
    rw [hc.parts] at hp
    rw [hc.lastId]
    rcases List.mem_append.mp hp with hp | hp
    · have := h.parts p hp
      omega
    · obtain ⟨q, -, rfl⟩ := List.mem_map.mp hp
      simp [PartRow.ofPart]

theorem Bounded.deleted {store after : Store} {id : Int} (h : store.Bounded)
    (hd : store.Deleted id after) : after.Bounded := by
  refine ⟨?_, ?_⟩
  · intro r hr
    rw [hd.submissions] at hr
    rw [hd.lastId]
    exact h.rows r (List.mem_filter.mp hr).1
  · intro p hp
    rw [hd.parts] at hp
    rw [hd.lastId]
    exact h.parts p (List.mem_filter.mp hp).1

/-- What is created at times that can be read can be read. -/
theorem Readable.created {store after : Store} {now : Timestamp} {s new : Submission}
    (h : store.Readable) (hc : store.Created now s after new) (hnow : now.IsKept)
    (hcreated : s.createdAt.IsKept) : after.Readable := by
  obtain ⟨hcreated', hupdated'⟩ := hc.isKept hnow hcreated
  intro r hr
  rw [hc.submissions] at hr
  rcases List.mem_append.mp hr with hold | hnew
  · exact h r hold
  · rw [List.mem_singleton.mp hnew]
    exact SubmissionRow.readable_ofSubmission hcreated' hupdated'

theorem Bounded.attached {store after : Store} {new : Attachment} (h : store.Bounded)
    (ha : store.Attached new after) : after.Bounded := by
  refine ⟨?_, ?_⟩
  · rw [ha.submissions, ha.lastId]
    exact h.rows
  · rw [ha.parts, ha.lastId]
    exact h.parts

/-- The parts of a submission that was just created. -/
theorem Created.partsOf_new {store after : Store} {now : Timestamp} {s new : Submission}
    (h : store.Created now s after new) (hb : store.Bounded) :
    after.partsOf (store.lastId + 1) = Part.sort s.partList := by
  unfold partsOf
  rw [h.parts, List.filter_append]
  -- no part belongs to an id that was not handed out yet
  have hold : store.parts.filter (·.submissionId == store.lastId + 1) = [] := by
    rw [List.filter_eq_nil_iff]
    intro p hp
    have := hb.parts p hp
    simp only [beq_iff_eq]
    omega
  have hnew : (s.partList.map (PartRow.ofPart (store.lastId + 1))).filter
      (·.submissionId == store.lastId + 1) =
        s.partList.map (PartRow.ofPart (store.lastId + 1)) := by
    rw [List.filter_eq_self]
    intro r hr
    obtain ⟨p, -, rfl⟩ := List.mem_map.mp hr
    simp [PartRow.ofPart]
  rw [hold, hnew, List.nil_append, List.map_map]
  congr 1
  conv => rhs; rw [← List.map_id s.partList]
  apply List.map_congr_left
  intro p _
  exact part_ofPart _ p

end ReviewQueue.Store
