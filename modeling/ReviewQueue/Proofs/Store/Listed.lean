import Mathlib.Data.List.Pairwise
import Mathlib.Logic.Relation
import ReviewQueue.Proofs.Import.Run
import ReviewQueue.Proofs.Store.Extends
import ReviewQueue.Proofs.Timestamp.Instant

/-!
# Lists in the order of creation

A list shows the submissions that a filter asks for, in the order in which they were created. The
database orders them by the text of their time of creation; where these times are in UTC, that is
the order of the instants. No operation changes the time or the id of a submission that stays, so
that two submissions stand in the same order in every list that shows both.

* `Restrictions.selects_iff`, `ListFilter.admits_iff` — what the restrictions of a filter select;
* `Listing` — what a list is to show, said by what reading the submissions one by one gives;
* `Next`, `Later` — what can become of a store, by calls and by imports;
* `Continues` — what every operation keeps of the rows, and so every run (`Later.continues`);
* `Continues.sameOrder` — the order of two submissions does not change;
* `listed_in_order` — the lists of every store that can be reached.
-/

namespace ReviewQueue

/-! ## What a filter selects -/

/-- A column that a list can be restricted by. -/
inductive FilterColumn where
  | project
  | batch
  | status

/-- What a row has in a column. -/
def FilterColumn.value (r : SubmissionRow) : FilterColumn → Option String
  | .project => some r.projectId
  | .batch => some r.batchId
  | .status => r.status

/-- The restrictions of a list as the database gets them: the columns to compare, and apart from
them the texts to compare them with, by their places. -/
structure Restrictions where
  columns : List FilterColumn := []
  arguments : List String := []

namespace Restrictions

/-- One more column to compare; an empty text restricts nothing. -/
def restrict (q : Restrictions) (column : FilterColumn) (argument : String) : Restrictions :=
  if argument = "" then q
  else { columns := q.columns ++ [column], arguments := q.arguments ++ [argument] }

/-- Whether a row has in each column the argument at its place. No value equals no argument. -/
def selects (q : Restrictions) (r : SubmissionRow) : Bool :=
  (q.columns.zip q.arguments).all fun c => c.1.value r == some c.2

/-- Every column has its argument. -/
def Aligned (q : Restrictions) : Prop := q.columns.length = q.arguments.length

variable {q : Restrictions} {column : FilterColumn} {argument : String}

theorem aligned_empty : Aligned {} := rfl

theorem Aligned.restrict (h : q.Aligned) : (q.restrict column argument).Aligned := by
  unfold Restrictions.restrict
  split
  · exact h
  · show (q.columns ++ [column]).length = (q.arguments ++ [argument]).length
    rw [List.length_append, List.length_append, h]
    rfl

/-- A new argument is compared with the new column, since the others are as many. -/
theorem Aligned.selects_restrict (h : q.Aligned) (r : SubmissionRow) :
    (q.restrict column argument).selects r = true ↔
      q.selects r = true ∧ (argument = "" ∨ column.value r = some argument) := by
  unfold Restrictions.restrict
  by_cases hempty : argument = ""
  · simp [hempty]
  · rw [if_neg hempty]
    unfold selects
    rw [List.zip_append h, List.all_append, Bool.and_eq_true]
    simp [hempty]

end Restrictions

namespace ListFilter

/-- The restrictions of a filter. -/
def restrictions (f : ListFilter) : Restrictions :=
  ((({} : Restrictions).restrict .project f.projectId).restrict .batch f.batchId).restrict .status
    f.status.label

/-- Whether a submission is one that a filter asks for. -/
structure Matches (f : ListFilter) (s : Submission) : Prop where
  project : f.projectId = "" ∨ s.projectId = f.projectId
  batch : f.batchId = "" ∨ s.batchId = f.batchId
  status : f.status = .none ∨ s.status = f.status

variable {f : ListFilter} {r : SubmissionRow}

theorem selects_restrictions : f.restrictions.selects r = true ↔
    (f.projectId = "" ∨ r.projectId = f.projectId) ∧ (f.batchId = "" ∨ r.batchId = f.batchId) ∧
      (f.status = .none ∨ r.status = some f.status.label) := by
  have hempty := Restrictions.aligned_empty
  unfold restrictions
  rw [hempty.restrict.restrict.selects_restrict, hempty.restrict.selects_restrict,
    hempty.selects_restrict, Status.label_eq_empty_iff]
  simp [Restrictions.selects, FilterColumn.value, and_assoc]

/-- A list shows what the restrictions of its filter select. -/
theorem admits_eq_selects : f.admits r = f.restrictions.selects r := by
  rw [Bool.eq_iff_iff, selects_restrictions]
  simp [admits, Status.isNone, and_assoc]

/-- A filter admits the rows of the submissions that it asks for. -/
theorem admits_iff (parts : List Part) : f.admits r = true ↔ f.Matches (r.submission parts) := by
  have hstatus : f.status = .none ∨ r.status = some f.status.label ↔
      f.status = .none ∨ (⟨Column.text r.status⟩ : Status) = f.status := by
    by_cases hnone : f.status = .none
    · simp [hnone]
    · -- the empty text of a row without a status is no status that a filter can ask for
      have hlabel : f.status.label ≠ "" := mt Status.label_eq_empty_iff.mp hnone
      rw [or_iff_right hnone, or_iff_right hnone, Status.mk.injEq]
      cases r.status with
      | none => simpa [Column.text] using Ne.symm hlabel
      | some text => simp [Column.text]
  rw [admits_eq_selects, selects_restrictions, hstatus]
  constructor
  · rintro ⟨hproject, hbatch, hstatus⟩
    exact ⟨hproject, hbatch, hstatus⟩
  · rintro ⟨hproject, hbatch, hstatus⟩
    exact ⟨hproject, hbatch, hstatus⟩

end ListFilter

/-- What a list shows of a submission. -/
def Submission.summary (s : Submission) : Summary :=
  { id := s.id
    title := s.title
    status := s.status
    worker := s.worker
    createdAt := s.createdAt }

/-- The reading of the clock at a call can be read back, as any time in UTC can that is of a year
with four digits. -/
def StoreCall.Timed : StoreCall → Prop
  | .create now _ | .review now _ _ => now.IsKept
  | .delete _ | .attach .. => True

namespace Store

/-! ## What is listed -/

/-- Every submission was created at a time in UTC, in a year of four digits. -/
def UtcCreated (store : Store) : Prop :=
  ∀ r ∈ store.submissions, ∃ t : Timestamp, t.IsUtc ∧ r.createdAt = t.column

/-- Every submission was written last at a time that can be read. -/
def Dated (store : Store) : Prop :=
  ∀ r ∈ store.submissions, (Timestamp.ofColumn? r.updatedAt).isSome

/-- What a list with a filter is to show: of every submission that the filter asks for what reading
it gives, and of no other, each once, by the instant of its creation and then by its id. -/
structure Listing (store : Store) (filter : ListFilter) (shown : List Summary) : Prop where
  mem_iff : ∀ x, x ∈ shown ↔
    ∃ s, store.get x.id = .ok s ∧ filter.Matches s ∧ x = s.summary
  once : (shown.map Summary.id).Nodup
  chronological : shown.Pairwise fun a b =>
    a.createdAt.instant < b.createdAt.instant ∨
      a.createdAt.instant = b.createdAt.instant ∧ a.id < b.id

variable {store after last : Store} {filter filter' : ListFilter}

theorem UtcCreated.canRead (h : store.UtcCreated) {r : SubmissionRow}
    (hr : r ∈ store.submissions) : (Timestamp.ofColumn? r.createdAt).isSome := by
  obtain ⟨t, ht, hcreated⟩ := h r hr
  rw [hcreated, ht.isKept.ofColumn?_column]
  rfl

/-- What is listed is what is read one by one. -/
theorem mem_summaries (hopen : store.isOpen = true) (hintact : store.Intact)
    (hutc : store.UtcCreated) (hdated : store.Dated) {x : Summary} :
    x ∈ (store.shown filter).map SubmissionRow.summary ↔
      ∃ s, store.get x.id = .ok s ∧ filter.Matches s ∧ x = s.summary := by
  constructor
  · intro hx
    obtain ⟨r, hr, rfl⟩ := List.mem_map.mp hx
    obtain ⟨hmem, hadmits⟩ := mem_shown.mp hr
    have hget : store.get r.id = .ok (r.submission (store.partsOf r.id)) :=
      get_eq_ok_iff.mpr ⟨hopen, r, row?_of_mem hintact.ids_nodup hmem,
        ⟨hutc.canRead hmem, hdated r hmem⟩, rfl⟩
    exact ⟨_, hget, (ListFilter.admits_iff _).mp hadmits, rfl⟩
  · rintro ⟨s, hget, hmatches, hx⟩
    obtain ⟨-, r, hrow, -, rfl⟩ := get_eq_ok_iff.mp hget
    rw [hx]
    have hr : r ∈ store.shown filter :=
      mem_shown.mpr ⟨(row?_eq_some hrow).1, (ListFilter.admits_iff _).mpr hmatches⟩
    exact List.mem_map_of_mem hr

/-- Rows by their columns are rows by the instants of their creation. -/
theorem summaries_chronological (hintact : store.Intact) (hutc : store.UtcCreated) :
    ((store.shown filter).map SubmissionRow.summary).Pairwise fun a b =>
      a.createdAt.instant < b.createdAt.instant ∨
        a.createdAt.instant = b.createdAt.instant ∧ a.id < b.id := by
  rw [List.pairwise_map]
  refine (shown_ordered hintact.ids_nodup filter).imp_of_mem ?_
  intro a b ha hb horder
  obtain ⟨t, ht, hcreated⟩ := hutc a (mem_shown.mp ha).1
  obtain ⟨u, hu, hcreated'⟩ := hutc b (mem_shown.mp hb).1
  show (Timestamp.ofColumn a.createdAt).instant < (Timestamp.ofColumn b.createdAt).instant ∨
    (Timestamp.ofColumn a.createdAt).instant = (Timestamp.ofColumn b.createdAt).instant ∧
      a.id < b.id
  rcases horder with hlt | ⟨heq, hid⟩
  · left
    rw [hcreated, hcreated'] at hlt ⊢
    rw [ht.isKept.ofColumn_column, hu.isKept.ofColumn_column]
    exact (Timestamp.column_lt_iff ht hu).mp hlt
  · right
    rw [heq]
    exact ⟨rfl, hid⟩

theorem listing_of_utc (hopen : store.isOpen = true) (hintact : store.Intact)
    (hutc : store.UtcCreated) (hdated : store.Dated) (filter : ListFilter) :
    store.Listing filter ((store.shown filter).map SubmissionRow.summary) where
  mem_iff _ := mem_summaries hopen hintact hutc hdated
  once := by
    rw [List.map_map]
    exact nodup_shown hintact.ids_nodup filter
  chronological := summaries_chronological hintact hutc

/-! ## What can become of a store -/

/-- What a call makes of a store, whether it succeeds or not, or the import of a file, however far
it gets. -/
inductive Next (store : Store) : Store → Prop where
  | called (call : StoreCall) (htimed : call.Timed) : Next store (store.perform call).1
  | imported (f : ImportFile) (clock : Clock) (hclock : clock.Sound) (console : Console) :
    Next store (Import.run f ⟨store, clock⟩ console).1.stored.store

/-- What calls and imports make of a store, in any number and order. -/
def Later : Store → Store → Prop := Relation.ReflTransGen Next

/-- A store that goes on from another: a row that is there has a new id, or is an old one with the
id, the time of creation and the parts that it had. -/
structure Continues (store after : Store) : Prop where
  isOpen : after.isOpen = store.isOpen
  intact : store.Intact → after.Intact
  dated : store.Dated → after.Dated
  lastId : store.lastId ≤ after.lastId
  rows : ∀ r ∈ after.submissions, store.lastId < r.id ∨
    ∃ old ∈ store.submissions, old.id = r.id ∧ old.createdAt = r.createdAt
  parts : ∀ r ∈ after.submissions, r.id ≤ store.lastId →
    (after.partsOf r.id).map Part.index = (store.partsOf r.id).map Part.index

namespace Continues

theorem refl (store : Store) : store.Continues store :=
  ⟨rfl, id, id, Int.le_refl _, fun r hr => .inr ⟨r, hr, rfl, rfl⟩, fun _ _ _ => rfl⟩

theorem trans (h : store.Continues after) (h' : after.Continues last) : store.Continues last where
  isOpen := h'.isOpen.trans h.isOpen
  intact hintact := h'.intact (h.intact hintact)
  dated hdated := h'.dated (h.dated hdated)
  lastId := h.lastId.trans h'.lastId
  rows r hr := by
    rcases h'.rows r hr with hnew | ⟨mid, hmid, hid, hcreated⟩
    · exact .inl (h.lastId.trans_lt hnew)
    · rw [← hid, ← hcreated]
      exact h.rows mid hmid
  parts r hr hold := by
    obtain hnew | ⟨mid, hmid, hid, -⟩ := h'.rows r hr
    · exact absurd (hold.trans h.lastId) (not_le_of_gt hnew)
    · rw [h'.parts r hr (hold.trans h.lastId), ← hid]
      exact h.parts mid hmid (hid ▸ hold)

theorem created {now : Timestamp} {s new : Submission} (h : store.Created now s after new)
    (hnow : now.IsKept) : store.Continues after where
  isOpen := h.stays.trans h.isOpen.symm
  intact hintact := hintact.created h
  dated hdated r hr := by
    rw [h.submissions] at hr
    rcases List.mem_append.mp hr with hold | hnew
    · exact hdated r hold
    · rw [List.mem_singleton.mp hnew]
      show (Timestamp.ofColumn? new.updatedAt.column).isSome
      rw [h.updatedAt_eq, hnow.ofColumn?_column]
      rfl
  lastId := by
    rw [h.lastId]
    omega
  rows r hr := by
    rw [h.submissions] at hr
    rcases List.mem_append.mp hr with hold | hnew
    · exact .inr ⟨r, hold, rfl, rfl⟩
    · rw [List.mem_singleton.mp hnew]
      have hid : (SubmissionRow.ofSubmission new).id = store.lastId + 1 := h.new_id
      exact .inl (by omega)
  parts r _ hold := by rw [h.partsOf_of_ne (by omega)]

theorem attached {new : Attachment} (h : store.Attached new after) : store.Continues after where
  isOpen := h.stays.trans h.isOpen.symm
  intact hintact := hintact.attached h
  dated hdated r hr := hdated r (h.submissions ▸ hr)
  lastId := h.lastId.ge
  rows r hr := .inr ⟨r, h.submissions ▸ hr, rfl, rfl⟩
  parts r _ _ := congrArg (List.map Part.index) (partsOf_congr (by rw [h.parts]))

theorem deleted {id : Int} (h : store.Deleted id after) : store.Continues after where
  isOpen := h.stays.trans h.isOpen.symm
  intact hintact := by
    obtain ⟨lastId, submissions, parts, attachments, isOpen⟩ := after
    obtain ⟨hopen, -, rfl, rfl, rfl, rfl, rfl⟩ := h
    rw [← hopen]
    exact hintact.delete id
  dated hdated r hr := by
    rw [h.submissions] at hr
    exact hdated r (List.mem_filter.mp hr).1
  lastId := h.lastId.ge
  rows r hr := by
    rw [h.submissions] at hr
    exact .inr ⟨r, (List.mem_filter.mp hr).1, rfl, rfl⟩
  parts r hr _ := by
    rw [h.submissions] at hr
    rw [h.partsOf_of_ne (by simpa using (List.mem_filter.mp hr).2)]

theorem reviewed (store : Store) {now : Timestamp} (hnow : now.IsKept) (id : Int) (v : Verdict) :
    store.Continues (store.reviewed now id v) where
  isOpen := rfl
  intact hintact := by
    have hkeys : (store.reviewed now id v).parts.map partKey = store.parts.map partKey := by
      show (store.parts.map (PartRow.decided id v.partList)).map partKey = _
      rw [List.map_map]
      exact List.map_congr_left fun p _ => by simp [partKey]
    exact hintact.update (store.reviewed_ids now id v) hkeys
  dated hdated r hr := by
    rw [reviewed_submissions] at hr
    obtain ⟨old, hold, rfl⟩ := List.mem_map.mp hr
    unfold SubmissionRow.decided
    split
    · exact Option.isSome_iff_exists.mpr ⟨now, hnow.ofColumn?_column⟩
    · exact hdated old hold
  lastId := Int.le_refl _
  rows r hr := by
    rw [reviewed_submissions] at hr
    obtain ⟨old, hold, rfl⟩ := List.mem_map.mp hr
    exact .inr ⟨old, hold, (SubmissionRow.decided_id ..).symm, (decided_createdAt ..).symm⟩
  parts r _ _ := by
    by_cases hid : r.id = id
    · rw [hid, partsOf_reviewed, List.map_map]
      exact List.map_congr_left fun p _ => Part.decided_index v.partList p
    · rw [partsOf_reviewed_of_ne store now id v hid]

theorem performed {call : StoreCall} {answer : Except StoreError StoreAnswer}
    (h : store.Performed call after answer) (htimed : call.Timed) : store.Continues after := by
  cases h with
  | refused => exact .refl store
  | create _ hcreated => exact created hcreated htimed
  | review | unread => exact reviewed store htimed _ _
  | delete _ hdeleted => exact deleted hdeleted
  | attach _ hattached => exact attached hattached

end Continues

/-- **Every operation continues the store**, whether it succeeds or fails. -/
theorem Next.continues (h : store.Next after) (hopen : store.isOpen = true) :
    store.Continues after := by
  cases h with
  | called call htimed => exact .performed (performed hopen call) htimed
  | imported f clock hclock console =>
      refine Import.run_keeps ?_ ?_ console (Continues.refl store)
      · intro r _ mid k next new hmid hcreated
        exact hmid.trans (.created hcreated (hclock k))
      · intro mid next new hmid hattached
        exact hmid.trans (.attached hattached)

theorem Later.continues (h : store.Later after) (hopen : store.isOpen = true) :
    store.Continues after := by
  induction h with
  | refl => exact .refl store
  | tail _ hnext ih => exact ih.trans (hnext.continues (ih.isOpen.trans hopen))

/-- What calls on a store make of it. -/
theorem later_run (store : Store) {calls : List StoreCall} (htimed : ∀ call ∈ calls, call.Timed) :
    store.Later (store.run calls).1 := by
  induction calls generalizing store with
  | nil => exact .refl
  | cons call rest ih =>
      obtain ⟨hcall, hrest⟩ := List.forall_mem_cons.mp htimed
      exact .head (.called call hcall) (ih _ hrest)

/-! ## The order of two submissions -/

/-- The elements that two lists share stand in the same order in both. -/
def SameOrder (l m : List Int) : Prop :=
  ∀ a ∈ l, ∀ b ∈ l, a ∈ m → b ∈ m → ([a, b].Sublist l ↔ [a, b].Sublist m)

/-- Of two elements of a list one comes before the other. -/
theorem precedes_or_precedes {l : List Int} {a b : Int} (ha : a ∈ l) (hb : b ∈ l) (hne : a ≠ b) :
    [a, b].Sublist l ∨ [b, a].Sublist l := by
  -- any two elements stand one before the other, so this holds of every pair
  have hpairs : l.Pairwise fun x y => [x, y].Sublist l ∨ [y, x].Sublist l :=
    List.pairwise_iff_forall_sublist.mpr fun h => .inl h
  have hsymm : Std.Symm fun x y => [x, y].Sublist l ∨ [y, x].Sublist l := ⟨fun _ _ h => h.symm⟩
  exact hpairs.forall ha hb hne

/-- A row comes before another by the time of its creation, and then by its id. -/
def Before (a b : SubmissionRow) : Prop :=
  a.createdAt < b.createdAt ∨ a.createdAt = b.createdAt ∧ a.id < b.id

theorem Before.asymm {a b : SubmissionRow} (h : Before a b) : ¬ Before b a := by
  rintro (hlt | ⟨heq, hid⟩)
  · rcases h with hlt' | ⟨heq', -⟩
    · exact lt_asymm hlt hlt'
    · exact lt_irrefl _ (heq' ▸ hlt)
  · rcases h with hlt' | ⟨-, hid'⟩
    · exact lt_irrefl _ (heq ▸ hlt')
    · omega

/-- Two rows in the order in which a list shows them. -/
theorem before_of_precedes (hintact : store.Intact) {a b : Int}
    (h : [a, b].Sublist ((store.shown filter).map SubmissionRow.id)) :
    ∃ r ∈ store.submissions, ∃ r' ∈ store.submissions, r.id = a ∧ r'.id = b ∧ Before r r' := by
  obtain ⟨rows, hrows, heq⟩ := List.sublist_map_iff.mp h
  obtain ⟨r, r', rfl⟩ : ∃ r r', rows = [r, r'] := by
    refine List.length_eq_two.mp ?_
    have := congrArg List.length heq
    rw [List.length_map] at this
    exact this.symm
  simp only [List.map_cons, List.map_nil, List.cons.injEq, and_true] at heq
  have hordered := (shown_ordered hintact.ids_nodup filter).sublist hrows
  have hmem : ∀ x ∈ [r, r'], x ∈ store.submissions := fun x hx => (mem_shown.mp (hrows.subset hx)).1
  exact ⟨r, hmem r (by simp), r', hmem r' (by simp), heq.1.symm, heq.2.symm,
    List.rel_of_pairwise_cons hordered (by simp)⟩

/-- What is known of the row of an old id in a store that goes on. -/
theorem Continues.createdAt_eq (h : store.Continues after) (hintact : store.Intact)
    {r r' : SubmissionRow} (hr : r ∈ store.submissions) (hr' : r' ∈ after.submissions)
    (hid : r.id = r'.id) : r.createdAt = r'.createdAt := by
  rcases h.rows r' hr' with hnew | ⟨old, hold, holdid, hcreated⟩
  · -- a new id is above all old ones, so it is not the id of an old row
    have := hintact.bounded.rows r hr
    omega
  · rw [← hcreated,
      List.inj_on_of_nodup_map hintact.ids_nodup hr hold (hid.trans holdid.symm)]

/-- A store that goes on does not put one submission before another that came before it. -/
theorem Continues.not_precedes (h : store.Continues after) (hintact : store.Intact) {a b : Int}
    (hab : [a, b].Sublist ((store.shown filter).map SubmissionRow.id)) :
    ¬ [b, a].Sublist ((after.shown filter').map SubmissionRow.id) := by
  intro hba
  -- the two rows in the earlier list, and the two rows of the same ids in the later one
  obtain ⟨r, hr, q, hq, rfl, rfl, hbefore⟩ := before_of_precedes hintact hab
  obtain ⟨q', hq', r', hr', hqid, hrid, hbefore'⟩ := before_of_precedes (h.intact hintact) hba
  have hrcreated := h.createdAt_eq hintact hr hr' hrid.symm
  have hqcreated := h.createdAt_eq hintact hq hq' hqid.symm
  refine hbefore.asymm ?_
  unfold Before at hbefore' ⊢
  rwa [hrcreated, hqcreated, ← hrid, ← hqid]

/-- **The order of two submissions does not change**, whatever is done to others and to them. -/
theorem Continues.sameOrder (h : store.Continues after) (hintact : store.Intact) :
    SameOrder ((store.shown filter).map SubmissionRow.id)
      ((after.shown filter').map SubmissionRow.id) := by
  have hnodup := nodup_shown hintact.ids_nodup filter
  have hnodup' := nodup_shown (h.intact hintact).ids_nodup filter'
  have hne {l : List Int} (hl : l.Nodup) {a b : Int} (hab : [a, b].Sublist l) : a ≠ b := by
    simpa using hl.sublist hab
  intro a ha b hb ha' hb'
  constructor
  · -- the other order is the only other one, and it would have turned the two around
    intro hab
    exact (precedes_or_precedes ha' hb' (hne hnodup hab)).resolve_right
      (h.not_precedes hintact hab)
  · intro hab
    exact (precedes_or_precedes ha hb (hne hnodup' hab)).resolve_right
      fun hba => h.not_precedes hintact hba hab

theorem map_id_summaries (rows : List SubmissionRow) :
    (rows.map SubmissionRow.summary).map Summary.id = rows.map SubmissionRow.id := by
  rw [List.map_map]
  rfl

/-! ## Reachable stores -/

/-- **A list shows what its filter asks for, in the order of creation, and that order is kept.** In
any store that calls and imports make of a new one, every list succeeds; when the submissions were
created at times in UTC, it shows what reading each submission that matches gives, each once, by the
instant of its creation and then by its id. Two submissions that are both in a list, and both in a
list of whatever the store becomes, stand in the same order in both. -/
theorem listed_in_order {store : Store} (hreached : Later {} store) (hutc : store.UtcCreated) :
    (∀ filter, ∃ shown, store.list filter = .ok shown ∧ store.Listing filter shown) ∧
      ∀ after, store.Later after → ∀ filter filter' shown shown',
        store.list filter = .ok shown → after.list filter' = .ok shown' →
          SameOrder (shown.map Summary.id) (shown'.map Summary.id) := by
  have hcontinues := hreached.continues rfl
  have hopen : store.isOpen = true := hcontinues.isOpen
  have hintact : store.Intact := hcontinues.intact intact_empty
  have hdated : store.Dated := hcontinues.dated fun _ hr => absurd hr List.not_mem_nil
  constructor
  · intro filter
    have hread : CanList (store.shown filter) := fun r hr => hutc.canRead (mem_shown.mp hr).1
    exact ⟨_, list_eq_ok_iff.mpr ⟨hopen, hread, rfl⟩,
      listing_of_utc hopen hintact hutc hdated filter⟩
  · intro after hlater filter filter' shown shown' hshown hshown'
    obtain ⟨-, -, rfl⟩ := list_eq_ok_iff.mp hshown
    obtain ⟨-, -, rfl⟩ := list_eq_ok_iff.mp hshown'
    rw [map_id_summaries, map_id_summaries]
    exact (hlater.continues hopen).sameOrder hintact

end Store

/-! ## Two submissions of one second -/

/-- A time of one morning. -/
def Timestamp.morning (second nanos : Nat) : Timestamp := ⟨2026, 1, 5, 8, 0, second, nanos, 0⟩

theorem Timestamp.isUtc_morning {second nanos : Nat} (hsecond : second < 60)
    (hnanos : nanos < 1000000000) : (morning second nanos).IsUtc where
  zone := rfl
  isReal := by
    refine ⟨?_, ?_, ?_, ?_, ?_, hsecond, hnanos⟩ <;> simp [morning, daysIn]

/-- A submission of half past a second. -/
def Submission.late : Submission := { title := "late", createdAt := .morning 7 500000000 }

/-- A submission of the start of that second. -/
def Submission.early : Submission := { title := "early", createdAt := .morning 7 0 }

/-- The later submission is stored first. -/
def Store.lateFirst : Store :=
  (run {} [.create (.morning 9 0) .late, .create (.morning 9 0) .early]).1

/-- What is stored of a submission that was created under an id. -/
def SubmissionRow.storedAtNine (id : Int) (s : Submission) : SubmissionRow :=
  .ofSubmission { s with id, updatedAt := .morning 9 0 }

theorem Store.submissions_lateFirst :
    lateFirst.submissions = [.storedAtNine 1 .late, .storedAtNine 2 .early] :=
  rfl

theorem Store.utcCreated_lateFirst : lateFirst.UtcCreated := by
  rw [UtcCreated, submissions_lateFirst]
  simp only [List.forall_mem_cons, List.not_mem_nil, false_implies, implies_true, and_true]
  exact ⟨⟨_, Timestamp.isUtc_morning (by decide) (by decide), rfl⟩,
    ⟨_, Timestamp.isUtc_morning (by decide) (by decide), rfl⟩⟩

/-- The text without a fraction comes first. -/
theorem Store.shown_lateFirst :
    lateFirst.shown {} = [.storedAtNine 2 .early, .storedAtNine 1 .late] := by
  have horder : inOrder (.storedAtNine 1 .late) (.storedAtNine 2 .early) = false := by
    decide +kernel
  have hall : lateFirst.submissions.filter ({} : ListFilter).admits = lateFirst.submissions := rfl
  rw [shown, hall, submissions_lateFirst]
  simp [List.mergeSort, List.MergeSort.Internal.splitInTwo, horder]

theorem Store.lateFirst_listed_in_order :
    ∃ shown, lateFirst.list {} = .ok shown ∧ shown.map Summary.id = [2, 1] ∧
      ∃ shown', (lateFirst.run [.review (.morning 20 0) 1 { status := .approved },
          .create (.morning 21 0) {}]).1.list {} = .ok shown' ∧
        SameOrder [2, 1] (shown'.map Summary.id) := by
  have hmorning (second : Nat) (h : second < 60) : (Timestamp.morning second 0).IsKept :=
    (Timestamp.isUtc_morning h (by decide)).isKept
  have hreached : Later {} lateFirst := later_run {} (by
    simp only [List.forall_mem_cons, List.not_mem_nil, false_implies, implies_true, and_true]
    exact ⟨hmorning 9 (by decide), hmorning 9 (by decide)⟩)
  have hgoes : lateFirst.Later (lateFirst.run [.review (.morning 20 0) 1 { status := .approved },
      .create (.morning 21 0) {}]).1 := later_run lateFirst (by
    simp only [List.forall_mem_cons, List.not_mem_nil, false_implies, implies_true, and_true]
    exact ⟨hmorning 20 (by decide), hmorning 21 (by decide)⟩)
  obtain ⟨hlisted, hkept⟩ := listed_in_order hreached utcCreated_lateFirst
  obtain ⟨shown, hshown, -⟩ := hlisted {}
  have hids : shown.map Summary.id = [2, 1] := by
    obtain ⟨-, -, rfl⟩ := list_eq_ok_iff.mp hshown
    rw [map_id_summaries, shown_lateFirst]
    rfl
  obtain ⟨shown', hshown'⟩ : ∃ shown', (lateFirst.run [.review (.morning 20 0) 1
      { status := .approved }, .create (.morning 21 0) {}]).1.list {} = .ok shown' := by
    have hutc : UtcCreated (lateFirst.run [.review (.morning 20 0) 1 { status := .approved },
        .create (.morning 21 0) {}]).1 := by
      intro r hr
      change r ∈ [_, _, _] at hr
      simp only [List.mem_cons, List.not_mem_nil, or_false] at hr
      rcases hr with rfl | rfl | rfl
      · exact ⟨.morning 7 500000000, Timestamp.isUtc_morning (by decide) (by decide), rfl⟩
      · exact ⟨.morning 7 0, Timestamp.isUtc_morning (by decide) (by decide), rfl⟩
      · exact ⟨.morning 21 0, Timestamp.isUtc_morning (by decide) (by decide), rfl⟩
    exact ⟨_, list_eq_ok_iff.mpr ⟨rfl, fun r hr => hutc.canRead (mem_shown.mp hr).1, rfl⟩⟩
  have horder := hkept _ hgoes {} {} shown shown' hshown hshown'
  rw [hids] at horder
  exact ⟨shown, hshown, hids, shown', hshown', horder⟩

end ReviewQueue
