import ReviewQueue.Proofs.Import.Run
import ReviewQueue.Proofs.Store.Clock
import ReviewQueue.Proofs.Store.Extends

/-!
# What an import creates

The records that an import creates are the first of each title that is not taken (`fresh`). None of
the creates fails when the records are sound and the clock gives new ids, so that an import is a
fold over those records (`steps_eq`).
-/

namespace ReviewQueue

/-- How often the clock is read for a record: once for its submission and once for each file. -/
def ImportRecord.readings (r : ImportRecord) : Nat := 1 + (r.attachments.getD []).length

/-- How often the clock is read for a file at most. -/
def ImportFile.readings (f : ImportFile) : Nat := (f.records.map ImportRecord.readings).sum

namespace Import

variable {f : ImportFile}

/-! ## Creating a record -/

/-- The rows of the files of a submission, each with the next reading. -/
def attachmentRows (id : Int) : Clock → List ImportAttachment → List AttachmentRow
  | _, [] => []
  | c, a :: rest =>
    .ofAttachment ((attachment id a).prepared c.now c.fresh) :: attachmentRows id c.tick rest

/-- Where the rows of files come from: their submission, their ids and their times. -/
theorem of_mem_attachmentRows {id : Int} {c : Clock} {files : List ImportAttachment}
    {a : AttachmentRow} (ha : a ∈ attachmentRows id c files) :
    a.submissionId = id ∧
      ∃ k < files.length, a.id = (c.advance k).fresh ∧ a.createdAt = (c.advance k).now.column := by
  induction files generalizing c with
  | nil => cases ha
  | cons file rest ih =>
      rcases List.mem_cons.mp ha with rfl | ha
      · exact ⟨rfl, 0, by simp, rfl, rfl⟩
      · obtain ⟨hid, k, hk, hfresh, hnow⟩ := ih ha
        rw [c.tick_eq_advance, Clock.advance_advance] at hfresh hnow
        exact ⟨hid, 1 + k, by simp; omega, hfresh, hnow⟩

/-- Files with new ids are attached, all of them. -/
theorem attachAll_eq {t : TimedStore} {id : Int} {files : List ImportAttachment}
    (hopen : t.store.isOpen = true) (hrow : (t.store.row? id).isNone = false)
    (hnew : t.clock.NewIds files.length t.store) :
    attachAll id t files =
      (⟨{ t.store with attachments := t.store.attachments ++ attachmentRows id t.clock files },
        t.clock.advance files.length⟩, none) := by
  induction files generalizing t with
  | nil => simp [attachAll, attachmentRows]
  | cons file rest ih =>
      obtain ⟨store, c⟩ := t
      let row := AttachmentRow.ofAttachment ((attachment id file).prepared c.now c.fresh)
      have hunused : store.attachments.any (·.id == c.fresh) = false := by
        rw [List.any_eq_false]
        intro a ha
        simpa using hnew.unused 0 (by simp) a ha
      have hattach : TimedStore.attach ⟨store, c⟩ (attachment id file) =
          (⟨{ store with attachments := store.attachments ++ [row] }, c.tick⟩,
            .ok ((attachment id file).prepared c.now c.fresh)) := by
        have hid : ((attachment id file).prepared c.now c.fresh).id = c.fresh := rfl
        have hsubmission : ((attachment id file).prepared c.now c.fresh).submissionId = id := rfl
        simp only [TimedStore.attach, Store.attach_eq hopen, hid, hsubmission, hunused, hrow]
        rfl
      have hnext : c.tick.NewIds rest.length
          { store with attachments := store.attachments ++ [row] } := by
        rw [List.length_cons, Nat.add_comm] at hnew
        refine hnew.advance ?_
        intro a ha
        rcases List.mem_append.mp ha with ha | ha
        · exact .inl ha
        · exact .inr ⟨0, Nat.one_pos, List.mem_singleton.mp ha ▸ rfl⟩
      rw [attachAll, hattach]
      simp only
      rw [ih (t := ⟨{ store with attachments := store.attachments ++ [row] }, c.tick⟩) hopen hrow
        hnext]
      simp [attachmentRows, row, Clock.tick_eq_advance, Nat.add_comm]

/-- The submission of a record as it is stored. -/
def newSubmission (f : ImportFile) (t : TimedStore) (r : ImportRecord) : Submission :=
  t.store.prepared t.clock.now (submission f r)

/-- The store with the submission of a record, but without its files. -/
def withSubmission (f : ImportFile) (t : TimedStore) (r : ImportRecord) : Store :=
  { t.store with
    lastId := t.store.lastId + 1
    submissions := t.store.submissions ++ [.ofSubmission (newSubmission f t r)]
    parts := t.store.parts ++ (r.parts.getD []).map (.ofPart (t.store.lastId + 1)) }

/-- The store with a record, and the clock behind it. -/
def added (f : ImportFile) (t : TimedStore) (r : ImportRecord) : TimedStore :=
  { store := { withSubmission f t r with
      attachments := t.store.attachments ++
        attachmentRows (t.store.lastId + 1) t.clock.tick (r.attachments.getD []) }
    clock := t.clock.advance r.readings }

/-- A store that is ready to take records: none of the creates will fail. -/
structure Ready (t : TimedStore) (records : List ImportRecord) : Prop where
  isOpen : t.store.isOpen = true
  intact : t.store.Intact
  distinct : ∀ r ∈ records, ((r.parts.getD []).map Part.index).Nodup
  newIds : t.clock.NewIds (records.map ImportRecord.readings).sum t.store

section Ready

variable {t : TimedStore} {r : ImportRecord} {rest : List ImportRecord}

theorem Ready.created (h : Ready t (r :: rest)) :
    t.store.Created t.clock.now (submission f r) (withSubmission f t r) (newSubmission f t r) where
  isOpen := h.isOpen
  distinct := by
    rw [Part.repeatedIndex?_eq_none_iff]
    exact ⟨h.distinct r List.mem_cons_self, by simp⟩
  new_eq := rfl
  lastId := rfl
  submissions := rfl
  parts := rfl
  attachments := rfl
  stays := h.isOpen

/-- A record is created with all of its files. -/
theorem Ready.createOne_eq (h : Ready t (r :: rest)) : createOne f t r = (added f t r, none) := by
  have hcreate : t.create (submission f r) =
      (⟨withSubmission f t r, t.clock.tick⟩, .ok (newSubmission f t r)) := by
    rw [TimedStore.create, h.created.create_eq]
    rfl
  have hrow : ((withSubmission f t r).row? (newSubmission f t r).id).isNone = false := by
    simp [Store.row?, withSubmission, SubmissionRow.ofSubmission]
  have hnew : t.clock.tick.NewIds (r.attachments.getD []).length (withSubmission f t r) := by
    have hids := h.newIds
    rw [List.map_cons, List.sum_cons, ImportRecord.readings] at hids
    exact (hids.mono (by omega)).advance fun a ha => .inl ha
  rw [createOne, hcreate]
  simp only
  rw [attachAll_eq (t := ⟨withSubmission f t r, t.clock.tick⟩) h.isOpen hrow hnew]
  simp [added, withSubmission, ImportRecord.readings, Clock.tick_eq_advance,
    newSubmission, Store.prepared]

/-- The store is ready for the records that follow. -/
theorem Ready.added (h : Ready t (r :: rest)) : Ready (added f t r) rest where
  isOpen := h.isOpen
  intact := by
    have hkept := createOne_keeps (P := Store.Intact) (f := f) (r := r)
      (fun _ _ _ _ hintact hcreated => hintact.created hcreated)
      (fun _ _ _ hintact hattached => hintact.attached hattached) t ⟨h.intact, rfl⟩
    rw [h.createOne_eq] at hkept
    exact hkept.store
  distinct r hr := h.distinct r (List.mem_cons_of_mem _ hr)
  newIds := by
    refine h.newIds.advance ?_
    intro a ha
    rcases List.mem_append.mp ha with ha | ha
    · exact .inl ha
    · obtain ⟨-, k, hk, hid, -⟩ := of_mem_attachmentRows ha
      rw [Clock.tick_eq_advance, Clock.advance_advance] at hid
      exact .inr ⟨1 + k, by rw [ImportRecord.readings]; omega, hid⟩

end Ready

/-! ## The records of a file -/

/-- The records whose titles are new: of each title that is not taken, the first. -/
def fresh (taken : List String) : List ImportRecord → List ImportRecord
  | [] => []
  | r :: rest =>
    if taken.contains r.title then fresh taken rest else r :: fresh (r.title :: taken) rest

/-- The titles that are created, each once and in the order in which they first occur. -/
theorem titles_fresh (taken : List String) (records : List ImportRecord) :
    (fresh taken records).map ImportRecord.title =
      ((records.map ImportRecord.title).filter (· ∉ taken)).eraseDups := by
  induction records generalizing taken with
  | nil => rfl
  | cons r rest ih =>
      rw [fresh, List.map_cons, List.filter_cons]
      by_cases htaken : r.title ∈ taken
      · rw [if_pos (List.contains_iff_mem.mpr htaken), if_neg (by simpa using htaken)]
        exact ih taken
      · rw [if_neg (mt List.contains_iff_mem.mp htaken), if_pos (by simpa using htaken),
          List.map_cons, ih, List.eraseDups_cons, List.filter_filter]
        congr 2
        apply List.filter_congr
        intro title _
        by_cases heq : title = r.title <;> simp [heq]

/-- The titles that are created are new. -/
theorem mem_of_mem_fresh {taken : List String} {records : List ImportRecord} {r : ImportRecord}
    (hr : r ∈ fresh taken records) : r ∈ records ∧ r.title ∉ taken := by
  induction records generalizing taken with
  | nil => cases hr
  | cons first rest ih =>
      rw [fresh] at hr
      split at hr
      · obtain ⟨hmem, hfree⟩ := ih hr
        exact ⟨List.mem_cons_of_mem _ hmem, hfree⟩
      · rename_i hfree
        rcases List.mem_cons.mp hr with rfl | hr
        · exact ⟨List.mem_cons_self, by simpa using hfree⟩
        · obtain ⟨hmem, hnot⟩ := ih hr
          exact ⟨List.mem_cons_of_mem _ hmem, fun h => hnot (List.mem_cons_of_mem _ h)⟩

theorem readings_fresh_le (taken : List String) (records : List ImportRecord) :
    ((fresh taken records).map ImportRecord.readings).sum ≤
      (records.map ImportRecord.readings).sum := by
  induction records generalizing taken with
  | nil => exact le_rfl
  | cons r rest ih =>
      rw [fresh, List.map_cons, List.sum_cons]
      split
      · exact (ih taken).trans (Nat.le_add_left _ _)
      · rw [List.map_cons, List.sum_cons]
        exact Nat.add_le_add_left (ih _) _

/-! ## Running over the records -/

/-- The import after a record that is skipped. -/
def skip (i : Import) (r : ImportRecord) : Import :=
  { i with
    console := i.console.detail ("Skipping existing submission " ++ Text.quoted r.title)
    skipped := i.skipped + 1 }

/-- The import after a record that is created. -/
def take (f : ImportFile) (i : Import) (r : ImportRecord) : Import :=
  { i with
    stored := added f i.stored r
    titles := r.title :: i.titles
    created := i.created + 1 }

theorem step_of_taken {i : Import} {r : ImportRecord} (h : i.titles.contains r.title = true) :
    step f i r = (i.skip r, none) := by
  rw [step, if_pos h]
  rfl

theorem step_of_new {i : Import} {r : ImportRecord} {rest : List ImportRecord}
    (h : i.titles.contains r.title = false) (hreal : i.console.dryRun = false)
    (hready : Ready i.stored (r :: rest)) : step f i r = (i.take f r, none) := by
  rw [step, if_neg (ne_true_of_eq_false h), if_neg (ne_true_of_eq_false hreal),
    hready.createOne_eq]
  rfl

@[simp] theorem detail_dryRun (c : Console) (message : String) :
    (c.detail message).dryRun = c.dryRun := by
  unfold Console.detail
  split <;> rfl

/-- **An import creates the new records one after the other**, and skips the others. -/
theorem steps_eq {i : Import} {records : List ImportRecord} (hreal : i.console.dryRun = false)
    (hready : Ready i.stored (fresh i.titles records)) :
    ∃ last, steps f i records = (last, none) ∧
      last.stored = (fresh i.titles records).foldl (added f) i.stored ∧
      last.created = i.created + (fresh i.titles records).length ∧
      last.created + last.skipped = i.created + i.skipped + records.length := by
  induction records generalizing i with
  | nil => exact ⟨i, rfl, rfl, rfl, rfl⟩
  | cons r rest ih =>
      rw [fresh] at hready ⊢
      cases htaken : i.titles.contains r.title with
      | true =>
          simp only [htaken, if_true] at hready ⊢
          have hskip : (i.skip r).console.dryRun = false := (detail_dryRun _ _).trans hreal
          obtain ⟨last, hsteps, hstored, hcreated, hcounts⟩ := ih hskip hready
          refine ⟨last, ?_, hstored, hcreated, ?_⟩
          · rw [steps, step_of_taken htaken]
            exact hsteps
          · simp only [skip, List.length_cons] at hcounts ⊢
            omega
      | false =>
          simp only [htaken, Bool.false_eq_true, if_false] at hready ⊢
          obtain ⟨last, hsteps, hstored, hcreated, hcounts⟩ :=
            ih (i := i.take f r) hreal hready.added
          refine ⟨last, ?_, hstored, ?_, ?_⟩
          · rw [steps, step_of_new htaken hreal hready]
            exact hsteps
          · simp only [take, List.length_cons] at hcreated ⊢
            omega
          · simp only [take, List.length_cons] at hcounts ⊢
            omega

end Import
end ReviewQueue
