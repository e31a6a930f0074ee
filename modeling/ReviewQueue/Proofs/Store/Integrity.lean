import Mathlib.Data.List.Nodup
import ReviewQueue.Proofs.Store.Transaction

/-!
# The integrity of the tables over whole runs

A run is any list of calls on a new store, with any arguments and in any order. At each of its
points the tables are `Store.Intact`: one row for every key, and no row without its submission.

* `Statement.keeps_intact` — every single statement keeps the tables intact, so that a transaction
  does, too, at each of its points;
* `Store.performed` — what a call does, by its kind: it is refused, or written in full, and only a
  review that cannot be read back is both written and answered with an error;
* `Store.Reached.perform` — what one call preserves, together with the ids that were handed out;
* `Store.run_keeps_integrity` — what holds after any run, and of any call that follows it.
-/

namespace ReviewQueue

namespace Store

/-- The ids in use. -/
def ids (store : Store) : List Int := store.submissions.map SubmissionRow.id

/-- The key of a part. -/
def partKey (p : PartRow) : Int × Int := (p.submissionId, p.index)

/-- Tables with one row for every key, in which every part and attachment has its submission. No id
in use is above the one that was handed out last. -/
structure Intact (store : Store) : Prop where
  ids_nodup : store.ids.Nodup
  ids_le : ∀ id ∈ store.ids, id ≤ store.lastId
  parts_owned : ∀ p ∈ store.parts, p.submissionId ∈ store.ids
  parts_nodup : (store.parts.map partKey).Nodup
  attachments_owned : ∀ a ∈ store.attachments, a.submissionId ∈ store.ids
  attachments_nodup : (store.attachments.map AttachmentRow.id).Nodup

variable {store after : Store}

theorem row?_isNone_iff {id : Int} : (store.row? id).isNone = true ↔ id ∉ store.ids := by
  simp [row?, ids]

theorem intact_empty : Intact {} := by
  constructor <;> simp [ids]

theorem Intact.bounded (h : store.Intact) : store.Bounded :=
  ⟨fun _ hr => h.ids_le _ (List.mem_map_of_mem hr), fun p hp => h.ids_le _ (h.parts_owned p hp)⟩

theorem mem_ids_of_row {id : Int} (h : ¬ (store.row? id).isNone = true) : id ∈ store.ids :=
  not_not.mp (mt row?_isNone_iff.mpr h)

/-! ## Rows that come, change and go -/

section Rows

variable {α β : Type} {rows : List α} {key : α → β}

theorem nodup_insert {row : α} (h : (rows.map key).Nodup) (hnew : key row ∉ rows.map key) :
    ((rows ++ [row]).map key).Nodup := by
  rw [List.map_append, List.map_singleton, ← List.concat_eq_append]
  exact h.concat hnew

theorem nodup_delete (keep : α → Bool) (h : (rows.map key).Nodup) :
    ((rows.filter keep).map key).Nodup :=
  h.sublist (List.filter_sublist.map key)

end Rows

theorem isPart_eq_true_iff {id index : Int} {p : PartRow} :
    isPart id index p = true ↔ partKey p = (id, index) := by
  simp [isPart, partKey]

theorem setPart_keys (id : Int) (d : PartVerdict) (parts : List PartRow) :
    (setPart id d parts).map partKey = parts.map partKey := by
  rw [setPart_eq_map, List.map_map]
  apply List.map_congr_left
  intro p _
  simp [partKey]

theorem setRow_ids (id : Int) (status : Status) (feedback : String) (timeElapsed : Int)
    (now : Timestamp) (rows : List SubmissionRow) :
    (setRow id status feedback timeElapsed now rows).map SubmissionRow.id =
      rows.map SubmissionRow.id := by
  unfold setRow
  rw [List.map_map]
  apply List.map_congr_left
  intro r _
  simp only [Function.comp_apply]
  split <;> rfl

/-- Tables stay intact when submissions come, under greater ids. -/
theorem Intact.insert_submission (h : store.Intact) (row : SubmissionRow) :
    Intact { store with
      lastId := store.lastId + 1
      submissions := store.submissions ++ [{ row with id := store.lastId + 1 }] } := by
  -- no id in use is above the last one that was handed out
  have hnew : store.lastId + 1 ∉ store.ids := by
    intro hid
    have := h.ids_le _ hid
    omega
  refine ⟨nodup_insert h.ids_nodup hnew, ?_, ?_, h.parts_nodup, ?_, h.attachments_nodup⟩
  · intro id hid
    rw [ids, List.map_append] at hid
    rcases List.mem_append.mp hid with hid | hid
    · exact Int.le_add_one (h.ids_le id hid)
    · exact Int.le_of_eq (List.mem_singleton.mp hid)
  · intro p hp
    rw [ids, List.map_append]
    exact List.mem_append_left _ (h.parts_owned p hp)
  · intro a ha
    rw [ids, List.map_append]
    exact List.mem_append_left _ (h.attachments_owned a ha)

theorem Intact.insert_part (h : store.Intact) {id : Int} {p : Part}
    (hfree : ¬ store.parts.any (isPart id p.index) = true) (hid : id ∈ store.ids) :
    Intact { store with parts := store.parts ++ [.ofPart id p] } := by
  refine ⟨h.ids_nodup, h.ids_le, ?_, nodup_insert h.parts_nodup ?_, h.attachments_owned,
    h.attachments_nodup⟩
  · intro q hq
    rcases List.mem_append.mp hq with hq | hq
    · exact h.parts_owned q hq
    · rw [List.mem_singleton.mp hq]
      exact hid
  · intro hmem
    obtain ⟨q, hq, hkey⟩ := List.mem_map.mp hmem
    exact hfree (List.any_eq_true.mpr ⟨q, hq, isPart_eq_true_iff.mpr hkey⟩)

theorem Intact.insert_attachment (h : store.Intact) {row : AttachmentRow}
    (hfree : ¬ store.attachments.any (·.id == row.id) = true) (hid : row.submissionId ∈ store.ids) :
    Intact { store with attachments := store.attachments ++ [row] } := by
  refine ⟨h.ids_nodup, h.ids_le, h.parts_owned, h.parts_nodup, ?_,
    nodup_insert h.attachments_nodup ?_⟩
  · intro a ha
    rcases List.mem_append.mp ha with ha | ha
    · exact h.attachments_owned a ha
    · rw [List.mem_singleton.mp ha]
      exact hid
  · intro hmem
    obtain ⟨a, ha, hkey⟩ := List.mem_map.mp hmem
    exact hfree (List.any_eq_true.mpr ⟨a, ha, beq_iff_eq.mpr hkey⟩)

/-- Tables stay intact when rows change under their keys. -/
theorem Intact.update (h : store.Intact) {submissions : List SubmissionRow} {parts : List PartRow}
    (hids : submissions.map SubmissionRow.id = store.ids)
    (hkeys : parts.map partKey = store.parts.map partKey) :
    Intact { store with submissions, parts } := by
  have hparts : ∀ p ∈ parts, p.submissionId ∈ store.ids := by
    intro p hp
    -- a part that was changed has the key of one that was there
    have hkey : partKey p ∈ store.parts.map partKey := hkeys ▸ List.mem_map_of_mem hp
    obtain ⟨q, hq, heq⟩ := List.mem_map.mp hkey
    have hid : q.submissionId = p.submissionId := congrArg Prod.fst heq
    exact hid ▸ h.parts_owned q hq
  have hnodup : (parts.map partKey).Nodup := by
    rw [hkeys]
    exact h.parts_nodup
  constructor <;> simp only [ids, hids]
  exacts [h.ids_nodup, h.ids_le, hparts, hnodup, h.attachments_owned, h.attachments_nodup]

/-- Tables stay intact when a submission goes with its parts and attachments. -/
theorem Intact.delete (h : store.Intact) (id : Int) :
    Intact { store with
      submissions := store.submissions.filter (·.id != id)
      parts := store.parts.filter (·.submissionId != id)
      attachments := store.attachments.filter (·.submissionId != id) } := by
  -- rows of another submission still have theirs
  have hstay : ∀ other ∈ store.ids, (other != id) = true →
      other ∈ (store.submissions.filter (·.id != id)).map SubmissionRow.id := by
    intro other hother hne
    obtain ⟨r, hr, rfl⟩ := List.mem_map.mp hother
    exact List.mem_map_of_mem (List.mem_filter.mpr ⟨hr, hne⟩)
  refine ⟨nodup_delete _ h.ids_nodup, ?_, ?_, nodup_delete _ h.parts_nodup, ?_,
    nodup_delete _ h.attachments_nodup⟩
  · intro other hother
    obtain ⟨r, hr, rfl⟩ := List.mem_map.mp hother
    exact h.ids_le _ (List.mem_map_of_mem (List.mem_filter.mp hr).1)
  · intro p hp
    obtain ⟨hp, hne⟩ := List.mem_filter.mp hp
    exact hstay _ (h.parts_owned p hp) hne
  · intro a ha
    obtain ⟨ha, hne⟩ := List.mem_filter.mp ha
    exact hstay _ (h.attachments_owned a ha) hne

end Store

/-! ## Statements -/

namespace Statement

variable {tables after : Store}

/-- **Every statement keeps the tables intact**, whatever it writes. -/
theorem keeps_intact {s : Statement} (hrun : s.run tables = .ok after) (h : tables.Intact) :
    after.Intact := by
  cases s with
  | insertSubmission row =>
      cases hrun
      exact h.insert_submission row
  | insertPart p =>
      simp only [run] at hrun
      split at hrun
      · cases hrun
      · rename_i hfree
        split at hrun
        · cases hrun
        · rename_i hrow
          cases hrun
          exact h.insert_part hfree (Store.mem_ids_of_row hrow)
  | updatePart id d =>
      simp only [run] at hrun
      split at hrun
      · cases hrun
        exact h.update rfl (Store.setPart_keys id d tables.parts)
      · cases hrun
  | updateSubmission now id v =>
      simp only [run] at hrun
      split at hrun
      · cases hrun
      · obtain rfl := Except.ok.inj hrun
        exact h.update (Store.setRow_ids id _ _ _ now tables.submissions) rfl
  | deleteSubmission id =>
      simp only [run] at hrun
      split at hrun
      · cases hrun
      · cases hrun
        exact h.delete id
  | insertAttachment row =>
      simp only [run] at hrun
      split at hrun
      · cases hrun
      · rename_i hfree
        split at hrun
        · cases hrun
        · rename_i hrow
          cases hrun
          exact h.insert_attachment hfree (Store.mem_ids_of_row hrow)

/-- No statement closes the store. -/
theorem run_isOpen {s : Statement} (hrun : s.run tables = .ok after) :
    after.isOpen = tables.isOpen := by
  cases s with
  | insertSubmission row =>
      cases hrun
      rfl
  | insertPart p | updatePart id d | deleteSubmission id | insertAttachment row =>
      simp only [run] at hrun
      repeat' split at hrun
      all_goals cases hrun
      rfl
  | updateSubmission now id v =>
      simp only [run] at hrun
      split at hrun
      · cases hrun
      · obtain rfl := Except.ok.inj hrun
        rfl

/-- A transaction keeps the tables intact, and the store open. -/
theorem all_keep_intact {statements : List Statement}
    (hrun : statements.foldlM run tables = .ok after) (h : tables.Intact) :
    after.Intact ∧ after.isOpen = tables.isOpen := by
  induction statements generalizing tables with
  | nil =>
      cases hrun
      exact ⟨h, rfl⟩
  | cons s rest ih =>
      rw [List.foldlM_cons] at hrun
      cases hs : s.run tables with
      | error e =>
          rw [hs] at hrun
          cases hrun
      | ok next =>
          rw [hs] at hrun
          obtain ⟨hintact, hopen⟩ := ih hrun (keeps_intact hs h)
          exact ⟨hintact, hopen.trans (run_isOpen hs)⟩

end Statement

/-! ## Calls that fail -/

/-- A call that a store cannot answer: a create with a part index twice, a review of a submission
or of a part that is not there, a delete of a submission that is not there, an attachment of a
submission that is not there or under an id in use. -/
def StoreCall.Refused (store : Store) : StoreCall → Prop
  | .create _ s => ¬ (s.partList.map Part.index).Nodup
  | .review _ id v =>
    id ∉ store.ids ∨ ∃ d ∈ v.partList, d.index ∉ (store.partsOf id).map Part.index
  | .delete id => id ∉ store.ids
  | .attach now fresh a =>
    a.submissionId ∉ store.ids ∨
      (a.prepared now fresh).id ∈ store.attachments.map AttachmentRow.id

/-- A review of a submission whose row cannot be read once it is written, for the time of its
creation or for that of the review. -/
def StoreCall.Unreadable (store : Store) : StoreCall → Prop
  | .review now id _ => ∃ r, store.row? id = some r ∧
      ¬ ((Timestamp.ofColumn? r.createdAt).isSome ∧ (Timestamp.ofColumn? now.column).isSome)
  | _ => False

theorem Part.repeatedIndex?_eq_none_iff {earlier : List Int} {parts : List Part} :
    Part.repeatedIndex? earlier parts = none ↔
      (parts.map Part.index).Nodup ∧ ∀ p ∈ parts, p.index ∉ earlier := by
  induction parts generalizing earlier with
  | nil => simp [Part.repeatedIndex?]
  | cons p rest ih =>
      rw [Part.repeatedIndex?]
      by_cases hp : p.index ∈ earlier
      · simp [hp]
      · simp only [List.contains_iff_mem, hp, if_false, ih, List.map_cons, List.nodup_cons,
          List.mem_map, List.mem_cons, not_or, forall_eq_or_imp, not_false_eq_true, true_and]
        constructor
        · rintro ⟨hnodup, hrest⟩
          refine ⟨⟨?_, hnodup⟩, fun q hq => (hrest q hq).2⟩
          rintro ⟨q, hq, heq⟩
          exact (hrest q hq).1 heq
        · rintro ⟨⟨hnew, hnodup⟩, hrest⟩
          exact ⟨hnodup, fun q hq => ⟨fun heq => hnew ⟨q, hq, heq⟩, hrest q hq⟩⟩

namespace Store

variable {store after : Store}

theorem isPart_known_iff {id index : Int} :
    store.parts.any (isPart id index) = true ↔ index ∈ (store.partsOf id).map Part.index := by
  rw [any_isPart, List.any_eq_true, List.mem_map]
  simp only [beq_iff_eq]

/-- A row can be read after a review when the time of its creation and that of the review can. -/
theorem readable_reviewed_iff {id : Int} {r : SubmissionRow} (h : store.row? id = some r)
    (now : Timestamp) (v : Verdict) :
    (∃ s, (store.reviewed now id v).get id = .ok s) ↔ store.isOpen = true ∧
      (Timestamp.ofColumn? r.createdAt).isSome ∧ (Timestamp.ofColumn? now.column).isSome := by
  have hid : r.id = id := (row?_eq_some h).2
  simp only [get_eq_ok_iff, row?_reviewed, h, reviewed_isOpen, Option.map_some, Option.some.injEq,
    exists_eq_left']
  unfold SubmissionRow.decided
  rw [if_pos hid]
  constructor
  · rintro ⟨s, hopen, hread, -⟩
    exact ⟨hopen, hread.createdAt, hread.updatedAt⟩
  · rintro ⟨hopen, hcreated, hnow⟩
    exact ⟨_, hopen, ⟨hcreated, hnow⟩, rfl⟩

/-- What a call does, by its kind: a call that is refused does nothing, and any other is written in
full. A review that cannot be read back is written, too. -/
inductive Performed (store : Store) : StoreCall → Store → Except StoreError StoreAnswer → Prop where
  | refused {call : StoreCall} (e : StoreError) :
    call.Refused store → Performed store call store (.error e)
  | create {now : Timestamp} {s new : Submission} {after : Store} :
    (s.partList.map Part.index).Nodup → store.Created now s after new →
      Performed store (.create now s) after (.ok (.created new))
  | review {now : Timestamp} {id : Int} {v : Verdict} (s : Submission) :
    ¬ (StoreCall.review now id v).Refused store → ¬ (StoreCall.review now id v).Unreadable store →
      Performed store (.review now id v) (store.reviewed now id v) (.ok (.reviewed s))
  | unread {now : Timestamp} {id : Int} {v : Verdict} (e : StoreError) :
    ¬ (StoreCall.review now id v).Refused store → (StoreCall.review now id v).Unreadable store →
      Performed store (.review now id v) (store.reviewed now id v) (.error e)
  | delete {id : Int} {after : Store} :
    id ∈ store.ids → store.Deleted id after → Performed store (.delete id) after (.ok .deleted)
  | attach {now : Timestamp} {fresh : String} {a new : Attachment} {after : Store} :
    ¬ (StoreCall.attach now fresh a).Refused store → store.Attached new after →
      Performed store (.attach now fresh a) after (.ok (.attached new))

theorem performed_review (hopen : store.isOpen = true) (now : Timestamp) (id : Int) (v : Verdict) :
    store.Performed (.review now id v) (store.perform (.review now id v)).1
      (store.perform (.review now id v)).2 := by
  obtain ⟨e, hreview, hrefused⟩ | ⟨-, hsome, known, hreview⟩ := store.review_cases now id v
  · simp only [perform, hreview]
    refine .refused e ?_
    cases hrefused with
    | closed hclosed => exact absurd hopen (by simp [hclosed])
    | noSubmission _ hrow => exact .inl (row?_isNone_iff.mp (by rw [hrow]; rfl))
    | noPart _ hd hmissing =>
        exact .inr ⟨_, hd, fun hmem => by simp [isPart_known_iff.mpr hmem] at hmissing⟩
  · obtain ⟨r, hrow⟩ := Option.isSome_iff_exists.mp hsome
    have hfound : ¬ (StoreCall.review now id v).Refused store := by
      rintro (hnone | ⟨d, hd, hunknown⟩)
      · exact hnone (mem_ids_of_row (by simp [hrow]))
      · exact hunknown (isPart_known_iff.mp (known d hd))
    have hread := readable_reviewed_iff hrow now v
    simp only [perform, hreview]
    cases hget : (store.reviewed now id v).get id with
    | ok s =>
        refine .review s hfound ?_
        rintro ⟨r', hrow', hnot⟩
        obtain rfl := Option.some.inj (hrow.symm.trans hrow')
        exact hnot (hread.mp ⟨s, hget⟩).2
    | error e =>
        refine .unread e hfound ⟨r, hrow, fun hboth => ?_⟩
        obtain ⟨s, hok⟩ := hread.mpr ⟨hopen, hboth⟩
        rw [hget] at hok
        cases hok

theorem performed_create (hopen : store.isOpen = true) (now : Timestamp) (s : Submission) :
    store.Performed (.create now s) (store.perform (.create now s)).1
      (store.perform (.create now s)).2 := by
  have hnone : Part.repeatedIndex? [] s.partList = none ↔
      (s.partList.map Part.index).Nodup := by
    simp [Part.repeatedIndex?_eq_none_iff]
  cases hcreate : store.create now s with
  | ok result =>
      have hcreated := created_of_ok hcreate
      simp only [perform, hcreate]
      exact .create (hnone.mp hcreated.distinct) hcreated
  | error e =>
      simp only [perform, hcreate]
      refine .refused e fun hnodup => ?_
      simp [Store.create, hopen, hnone.mpr hnodup] at hcreate

theorem performed_delete (hopen : store.isOpen = true) (id : Int) :
    store.Performed (.delete id) (store.perform (.delete id)).1 (store.perform (.delete id)).2 := by
  cases hdelete : store.delete id with
  | ok after =>
      have hdeleted := deleted_of_ok hdelete
      simp only [perform, hdelete]
      have hfound : ¬ (store.row? id).isNone := by
        simpa [Option.isSome_iff_ne_none] using hdeleted.found
      exact .delete (mem_ids_of_row hfound) hdeleted
  | error e =>
      simp only [perform, hdelete]
      refine .refused e fun hid => ?_
      have hrow : ¬ (store.row? id).isNone = true := fun h => row?_isNone_iff.mp h hid
      simp [Store.delete, hopen, hrow] at hdelete

theorem performed_attach (hopen : store.isOpen = true) (now : Timestamp) (fresh : String)
    (a : Attachment) :
    store.Performed (.attach now fresh a) (store.perform (.attach now fresh a)).1
      (store.perform (.attach now fresh a)).2 := by
  have hused : (a.prepared now fresh).id ∈ store.attachments.map AttachmentRow.id ↔
      store.attachments.any (·.id == (a.prepared now fresh).id) = true := by
    simp
  have hid : (a.prepared now fresh).submissionId = a.submissionId := rfl
  have hattach := attach_eq hopen now fresh a
  dsimp only at hattach
  simp only [perform]
  split at hattach
  · rename_i hin
    simp only [hattach]
    exact .refused _ (.inr (hused.mpr hin))
  · rename_i hunused
    split at hattach
    · rename_i hnone
      simp only [hattach]
      exact .refused _ (.inl (hid ▸ row?_isNone_iff.mp hnone))
    · rename_i hrow
      have hattached := attached_of_ok hattach
      simp only [hattach]
      refine .attach ?_ hattached
      rintro (hmissing | hin)
      · exact hmissing (hid ▸ mem_ids_of_row hrow)
      · exact hunused (hused.mp hin)

/-- **What a call does**: nothing when it is refused, and else all of it. -/
theorem performed (hopen : store.isOpen = true) (call : StoreCall) :
    store.Performed call (store.perform call).1 (store.perform call).2 := by
  cases call with
  | create now s => exact performed_create hopen now s
  | review now id v => exact performed_review hopen now id v
  | delete id => exact performed_delete hopen id
  | attach now fresh a => exact performed_attach hopen now fresh a

end Store

/-! ## Runs -/

/-- The id that an answer hands out, which only that of a create does. -/
def createdId? : Except StoreError StoreAnswer → Option Int
  | .ok (.created s) => some s.id
  | _ => none

namespace Store

/-- The store after calls, and their answers. -/
def run (store : Store) : List StoreCall → Store × List (Except StoreError StoreAnswer)
  | [] => (store, [])
  | call :: rest =>
    let (after, answer) := store.perform call
    let (last, answers) := after.run rest
    (last, answer :: answers)

/-- The ids that answers handed out, in order. -/
def createdIds (answers : List (Except StoreError StoreAnswer)) : List Int :=
  answers.filterMap createdId?

/-- A point of a run: what the tables are, and which ids were handed out so far. -/
structure Reached (store : Store) (handedOut : List Int) : Prop where
  isOpen : store.isOpen = true
  intact : store.Intact
  ascending : handedOut.Pairwise (· < ·)
  handedOut_le : ∀ id ∈ handedOut, id ≤ store.lastId
  ids_handedOut : ∀ id ∈ store.ids, id ∈ handedOut

variable {store after : Store} {handedOut : List Int} {call : StoreCall}
  {answer : Except StoreError StoreAnswer}

@[simp] theorem reviewed_ids (store : Store) (now : Timestamp) (id : Int) (v : Verdict) :
    (store.reviewed now id v).ids = store.ids := by
  rw [ids, reviewed_submissions, List.map_map]
  exact List.map_congr_left fun r _ => SubmissionRow.decided_id id _ now v r

theorem reached_empty : Reached {} [] := by
  refine ⟨rfl, intact_empty, List.Pairwise.nil, ?_, ?_⟩ <;> simp [ids]

/-- Only a create hands out an id, and one above all that were handed out before. -/
theorem Reached.lt_handedOut (h : store.Reached handedOut) (hp : store.Performed call after answer)
    {new : Int} (hnew : createdId? answer = some new) : ∀ id ∈ handedOut, id < new := by
  cases hp with
  | create _ hc =>
      obtain rfl := Option.some.inj hnew
      intro id hid
      have := h.handedOut_le id hid
      have := hc.new_id
      omega
  | refused | review | unread | delete | attach => cases hnew

/-- The ids after a call: those in use are among those handed out, and the greatest is the last. -/
theorem Reached.ids_performed (h : store.Reached handedOut)
    (hp : store.Performed call after answer) :
    (∀ id ∈ handedOut ++ (createdId? answer).toList, id ≤ after.lastId) ∧
      ∀ id ∈ after.ids, id ∈ handedOut ++ (createdId? answer).toList := by
  cases hp with
  | refused e => simpa [createdId?] using And.intro h.handedOut_le h.ids_handedOut
  | create _ hc =>
      refine ⟨?_, ?_⟩
      · intro id hid
        rw [hc.lastId]
        rcases List.mem_append.mp hid with hid | hid
        · exact Int.le_add_one (h.handedOut_le id hid)
        · exact Int.le_of_eq ((List.mem_singleton.mp hid).trans hc.new_id)
      · intro id hid
        rw [ids, hc.submissions, List.map_append] at hid
        rcases List.mem_append.mp hid with hid | hid
        · exact List.mem_append_left _ (h.ids_handedOut id hid)
        · exact List.mem_append_right _ hid
  | review | unread =>
      simpa [createdId?] using And.intro h.handedOut_le h.ids_handedOut
  | delete _ hd =>
      simp only [createdId?, Option.toList_none, List.append_nil, hd.lastId]
      refine ⟨h.handedOut_le, ?_⟩
      intro id hid
      rw [ids, hd.submissions] at hid
      obtain ⟨r, hr, rfl⟩ := List.mem_map.mp hid
      exact h.ids_handedOut _ (List.mem_map_of_mem (List.mem_filter.mp hr).1)
  | attach _ ha =>
      simpa [createdId?, ids, ha.lastId, ha.submissions] using
        And.intro h.handedOut_le h.ids_handedOut

/-- A call keeps the tables intact and the store open: it is all of its statements or none. -/
theorem Reached.kept (h : store.Reached handedOut) (call : StoreCall) :
    (store.perform call).1.Intact ∧ (store.perform call).1.isOpen = true := by
  have hstatements := perform_statements h.isOpen h.intact.bounded call
  split at hstatements
  · rename_i after hrun
    obtain ⟨hintact, hopen⟩ := Statement.all_keep_intact hrun h.intact
    exact hstatements ▸ ⟨hintact, hopen.trans h.isOpen⟩
  · rw [hstatements]
    exact ⟨h.intact, h.isOpen⟩

/-- **A call leads from one point of a run to the next**, whether it succeeds or not. -/
theorem Reached.perform (h : store.Reached handedOut) (call : StoreCall) :
    (store.perform call).1.Reached (handedOut ++ (createdId? (store.perform call).2).toList) := by
  have hp := performed h.isOpen call
  obtain ⟨hintact, hopen⟩ := h.kept call
  obtain ⟨hle, hids⟩ := h.ids_performed hp
  refine ⟨hopen, hintact, List.pairwise_append.mpr ⟨h.ascending, ?_, ?_⟩, hle, hids⟩
  · cases createdId? (store.perform call).2 <;> simp
  · intro id hid other hother
    exact h.lt_handedOut hp (Option.mem_toList.mp hother) id hid

/-- A run leads from one of its points to its last. -/
theorem Reached.run (h : store.Reached handedOut) (calls : List StoreCall) :
    (store.run calls).1.Reached (handedOut ++ createdIds (store.run calls).2) := by
  induction calls generalizing store handedOut with
  | nil => simpa [Store.run, createdIds] using h
  | cons call rest ih =>
      have hrest := ih (h.perform call)
      rw [List.append_assoc] at hrest
      have hids : createdIds ((store.run (call :: rest)).2) =
          (createdId? (store.perform call).2).toList ++
            createdIds ((store.perform call).1.run rest).2 := by
        simp only [Store.run, createdIds, List.filterMap_cons]
        cases createdId? (store.perform call).2 <;> rfl
      rw [hids]
      exact hrest

/-- What holds of a call at a point of a run. -/
structure Answers (store : Store) (handedOut : List Int) (call : StoreCall) : Prop where
  /-- Over a connection the call does what it does to the store, wherever its statements fail. -/
  connection : Connection.call ⟨store, none⟩ call =
    (⟨(store.perform call).1, none⟩, storeErrorOf (store.perform call).2)
  error_iff : (∃ e, (store.perform call).2 = .error e) ↔
    call.Refused store ∨ call.Unreadable store
  refused : call.Refused store → (store.perform call).1 = store
  /-- A review is written although what it wrote cannot be read. -/
  written : ∀ now id v, call = .review now id v → ¬ call.Refused store →
    (store.perform call).1 = store.reviewed now id v
  created : ∀ new, (store.perform call).2 = .ok (.created new) →
    new.id ∈ (store.perform call).1.ids ∧ ∀ id ∈ handedOut, id < new.id
  deleted : ∀ id, call = .delete id → id ∈ store.ids →
    store.Deleted id (store.perform call).1

theorem Performed.error_iff (hp : store.Performed call after answer) :
    (∃ e, answer = .error e) ↔ call.Refused store ∨ call.Unreadable store := by
  cases hp with
  | refused e h => exact ⟨fun _ => .inl h, fun _ => ⟨e, rfl⟩⟩
  | unread e _ h => exact ⟨fun _ => .inr h, fun _ => ⟨e, rfl⟩⟩
  | create h _ => simp [StoreCall.Refused, StoreCall.Unreadable, h]
  | review s hfound hread => simp [hfound, hread]
  | delete h _ => simp [StoreCall.Refused, StoreCall.Unreadable, h]
  | attach h _ => simp [h, StoreCall.Unreadable]

theorem Performed.eq_of_refused (hp : store.Performed call after answer)
    (h : call.Refused store) : after = store := by
  cases hp with
  | refused => rfl
  | create hnodup => exact absurd hnodup h
  | review _ hfound | unread _ hfound => exact absurd h hfound
  | delete hid => exact absurd hid h
  | attach hfound => exact absurd h hfound

theorem Performed.eq_reviewed {now : Timestamp} {id : Int} {v : Verdict}
    (hp : store.Performed (.review now id v) after answer)
    (h : ¬ (StoreCall.review now id v).Refused store) : after = store.reviewed now id v := by
  cases hp with
  | refused _ hrefused => exact absurd hrefused h
  | review | unread => rfl

theorem Performed.created {new : Submission}
    (hp : store.Performed call after (.ok (.created new))) : new.id ∈ after.ids := by
  cases hp with
  | create _ hc =>
      rw [ids, hc.submissions, List.map_append]
      exact List.mem_append_right _ (List.mem_singleton_self _)

theorem Performed.deleted {id : Int} (hp : store.Performed (.delete id) after answer)
    (h : id ∈ store.ids) : store.Deleted id after := by
  cases hp with
  | refused _ hrefused => exact absurd h hrefused
  | delete _ hd => exact hd

theorem Reached.answers (h : store.Reached handedOut) (call : StoreCall) :
    store.Answers handedOut call := by
  have hp := performed h.isOpen call
  refine ⟨Connection.call_eq h.isOpen h.intact.bounded call, hp.error_iff, hp.eq_of_refused, ?_,
    ?_, ?_⟩
  · rintro now id v rfl hfound
    exact hp.eq_reviewed hfound
  · intro new hnew
    rw [hnew] at hp
    exact ⟨hp.created, h.lt_handedOut hp rfl⟩
  · rintro id rfl hfound
    exact hp.deleted hfound

/-- **The tables are intact after any calls on a new store.** The ids of the created submissions
ascend, and of any call that follows we know when it fails, which ids a create may hand out, and
what a delete removes. A call that is refused is as if it had not been made. One call that fails is
not undone: a review that was written and cannot be read back. -/
theorem run_keeps_integrity (calls : List StoreCall) :
    (run {} calls).1.Intact ∧
      (createdIds (run {} calls).2).Pairwise (· < ·) ∧
      ∀ call, (run {} calls).1.Answers (createdIds (run {} calls).2) call := by
  have hreached : (run {} calls).1.Reached (createdIds (run {} calls).2) :=
    reached_empty.run calls
  exact ⟨hreached.intact, hreached.ascending, hreached.answers⟩

/-- A time in a zone of five and a half hours. -/
def eastern : Timestamp := ⟨2024, 1, 1, 0, 0, 0, 0, 330⟩

/-- The review of a submission that was created in such a zone fails, and is not undone: the verdict
is in its row afterwards. -/
theorem failed_review_written :
    let store := (run {} [.create .zero { createdAt := eastern }]).1
    let call := StoreCall.review .zero 1 { status := .approved }
    (∃ e, (store.perform call).2 = .error e) ∧ (store.perform call).1 ≠ store := by
  intro store call
  have hanswers : store.Answers [1] call :=
    (reached_empty.run [.create .zero { createdAt := eastern }]).answers call
  have hread : Timestamp.ofColumn? eastern.column = none :=
    Timestamp.ofColumn?_column_of_zone ⟨by decide, by decide, by decide, by decide, by decide,
      by decide, by decide⟩ (by decide) (by decide)
  have hunread : call.Unreadable store := by
    refine ⟨_, rfl, fun h => ?_⟩
    have hcreated : (Timestamp.ofColumn? eastern.column).isSome = true := h.1
    rw [hread] at hcreated
    cases hcreated
  have hfound : ¬ call.Refused store := by
    rintro (hnone | ⟨d, hd, -⟩)
    · exact hnone List.mem_cons_self
    · exact absurd hd List.not_mem_nil
  refine ⟨hanswers.error_iff.mpr (.inr hunread), fun hsame => ?_⟩
  have hrows := congrArg (fun store => store.submissions.map SubmissionRow.status)
    ((hanswers.written .zero 1 _ rfl hfound).symm.trans hsame)
  exact absurd hrows (by decide)

end Store
end ReviewQueue
