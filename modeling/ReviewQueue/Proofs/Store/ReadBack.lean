import ReviewQueue.Proofs.Store.Clock
import ReviewQueue.Proofs.Store.Extends

/-!
# Submissions read back as they were created

A create spreads a submission over the columns of two tables: empty texts become no value, people
become JSON texts, times become texts that sort, and every part becomes a row of its own. Reading
the new id puts all of it together again.

* `ReadBack` — what came of a create: what is read under the new id, and where the tables have no
  value;
* `Created.readBack` — a create that succeeded, and what is read of it;
* `Created.unreadable` — what is created at a time of a year with five digits cannot be read;
* `create_read_back` — when a create succeeds, and what then comes back.
-/

namespace ReviewQueue

/-- A time of the calendar in UTC, of any year. Unlike `IsUtc` it says nothing on the number of the
digits of the year. -/
structure Timestamp.InUtc (t : Timestamp) : Prop where
  month : 1 ≤ t.month ∧ t.month ≤ 12
  day : 1 ≤ t.day ∧ t.day ≤ Timestamp.daysIn t.year t.month
  hour : t.hour < 24
  minute : t.minute < 60
  second : t.second < 60
  nanos : t.nanos < 1000000000
  zone : t.offset = 0

theorem Timestamp.InUtc.isUtc {t : Timestamp} (h : t.InUtc) (hyear : t.year ≤ 9999) : t.IsUtc :=
  ⟨⟨hyear, h.month, h.day, h.hour, h.minute, h.second, h.nanos⟩, h.zone⟩

/-- A submission as a caller can have it: the numbers of its people fit a word, and its time of
creation is in UTC, of any year. -/
structure Submission.Storable (s : Submission) : Prop where
  worker : ∀ p ∈ s.worker, p.Portable
  projectOwner : ∀ p ∈ s.projectOwner, p.Portable
  createdAt : s.createdAt.InUtc

/-- A row has no value where the submission has an empty text. -/
structure SubmissionRow.NullWhereEmpty (r : SubmissionRow) (s : Submission) : Prop where
  status : r.status = none ↔ s.status = .none
  feedback : r.feedback = none ↔ s.feedback = ""
  instructions : r.instructions = none ↔ s.instructions = ""
  labelingConfig : r.labelingConfig = none ↔ s.labelingConfig = ""
  taskData : r.taskData = none ↔ s.taskData = ""
  data : r.data = none ↔ s.data = ""

/-- The row of a part has no value where the part has an empty text. -/
structure PartRow.NullWhereEmpty (r : PartRow) (p : Part) : Prop where
  status : r.status = none ↔ p.status = .none
  feedback : r.feedback = none ↔ p.feedback = ""

theorem PartRow.nullWhereEmpty_ofPart (id : Int) (p : Part) :
    (PartRow.ofPart id p).NullWhereEmpty p :=
  ⟨Column.ofText_eq_none_iff.trans Status.label_eq_empty_iff, Column.ofText_eq_none_iff⟩

namespace SubmissionRow

theorem nullWhereEmpty_ofSubmission (s : Submission) : (ofSubmission s).NullWhereEmpty s :=
  ⟨Column.ofText_eq_none_iff.trans Status.label_eq_empty_iff, Column.ofText_eq_none_iff,
    Column.ofText_eq_none_iff, Column.ofText_eq_none_iff, Column.ofText_eq_none_iff,
    Column.ofText_eq_none_iff⟩

end SubmissionRow

namespace Store

/-! ## Creates -/

/-- What came of a create: the new submission has an id that was never handed out, and is read as it
was given, but for its id and its times, with its parts in ascending order. In the tables its empty
texts are no values. -/
structure ReadBack (store : Store) (now : Timestamp) (s : Submission) (after : Store)
    (new : Submission) : Prop where
  fresh : store.lastId < new.id
  unused : new.id ∉ store.ids
  read : ∃ parts, parts.Perm s.partList ∧ (parts.Pairwise fun a b => a.index < b.index) ∧
    after.get new.id = .ok
      { s with
        id := new.id
        parts := some parts
        createdAt := if s.createdAt.isZero then now else s.createdAt
        updatedAt := now }
  nulls : ∃ r, after.row? new.id = some r ∧ r.NullWhereEmpty s
  partNulls : ∀ r ∈ after.parts, r.submissionId = new.id →
    r.part ∈ s.partList ∧ r.NullWhereEmpty r.part

variable {store after : Store} {now : Timestamp} {s new : Submission}

/-- The parts that a create adds are the only ones under its id. -/
theorem Created.part_of_new (h : store.Created now s after new) (hintact : store.Intact)
    {r : PartRow} (hr : r ∈ after.parts) (hid : r.submissionId = new.id) :
    ∃ p ∈ s.partList, r = .ofPart new.id p := by
  rw [h.parts] at hr
  rw [h.new_id] at hid ⊢
  rcases List.mem_append.mp hr with hold | hnew
  · have := hintact.bounded.parts r hold
    omega
  · obtain ⟨p, hp, rfl⟩ := List.mem_map.mp hnew
    exact ⟨p, hp, rfl⟩

theorem Created.readBack (h : store.Created now s after new) (hintact : store.Intact)
    (hworker : ∀ p ∈ s.worker, p.Portable) (howner : ∀ p ∈ s.projectOwner, p.Portable)
    (hnow : now.IsKept) (hcreated : s.createdAt.IsKept) : store.ReadBack now s after new := by
  have hdistinct : (s.partList.map Part.index).Nodup :=
    (Part.repeatedIndex?_eq_none_iff.mp h.distinct).1
  have hrow := h.row?_new hintact
  obtain ⟨hcreated', hupdated'⟩ := h.isKept hnow hcreated
  have hget := (h.get_new_iff hintact).mpr
    ⟨SubmissionRow.readable_ofSubmission hcreated' hupdated', rfl⟩
  rw [← h.new_id] at hget hrow
  refine ⟨?_, ?_, ⟨Part.sort s.partList, Part.perm_sort _, Part.ascending_sort hdistinct, ?_⟩,
    ⟨_, hrow, ?_⟩, ?_⟩
  · rw [h.new_id]
    omega
  · rw [h.new_id]
    exact hintact.next_not_mem
  · rw [hget, SubmissionRow.submission_ofSubmission (by rw [h.new_eq]; exact hworker)
      (by rw [h.new_eq]; exact howner), hcreated'.ofColumn_column, hupdated'.ofColumn_column,
      h.new_eq]
    rfl
  · have hnulls := SubmissionRow.nullWhereEmpty_ofSubmission new
    rw [h.new_eq] at hnulls ⊢
    exact { hnulls with }
  · intro r hr hid
    obtain ⟨p, hp, rfl⟩ := h.part_of_new hintact hr hid
    rw [part_ofPart]
    exact ⟨hp, PartRow.nullWhereEmpty_ofPart new.id p⟩

/-- What is created at a time of a year with five digits, or has such a time, cannot be read. -/
theorem Created.unreadable (h : store.Created now s after new) (hintact : store.Intact)
    (hyears : ¬ (now.year ≤ 9999 ∧ s.createdAt.year ≤ 9999)) :
    ∃ e, after.get new.id = .error e := by
  cases hget : after.get new.id with
  | error e => exact ⟨e, rfl⟩
  | ok shown =>
      rw [h.new_id] at hget
      obtain ⟨hread, -⟩ := (h.get_new_iff hintact).mp hget
      have hnone {t : Timestamp} (hyear : ¬ t.year ≤ 9999)
          (hsome : (Timestamp.ofColumn? t.column).isSome) : False := by
        rw [Timestamp.ofColumn?_column_of_year (by omega)] at hsome
        cases hsome
      have hupdated : (Timestamp.ofColumn? new.updatedAt.column).isSome := hread.updatedAt
      have hcreated : (Timestamp.ofColumn? new.createdAt.column).isSome := hread.createdAt
      rw [h.updatedAt_eq] at hupdated
      rw [h.createdAt_eq] at hcreated
      refine (hyears ⟨not_not.mp fun hyear => hnone hyear hupdated, ?_⟩).elim
      by_cases hzero : s.createdAt.isZero = true
      · -- the time that is not given is one of the first year
        have hyear : s.createdAt = .zero := by simpa [Timestamp.isZero] using hzero
        rw [hyear]
        decide
      · rw [if_neg hzero] at hcreated
        exact not_not.mp fun hyear => hnone hyear hcreated

end Store

/-- An index that is found to repeat is there twice. -/
theorem Part.count_of_repeatedIndex {earlier : List Int} {parts : List Part} {index : Int}
    (h : Part.repeatedIndex? earlier parts = some index) :
    2 ≤ (earlier ++ parts.map Part.index).count index := by
  induction parts generalizing earlier with
  | nil => cases h
  | cons p rest ih =>
      rw [Part.repeatedIndex?] at h
      rw [List.map_cons]
      split at h
      · rename_i hearlier
        obtain rfl := Option.some.inj h
        have hbefore := List.count_pos_iff.mpr (List.contains_iff_mem.mp hearlier)
        rw [List.count_append, List.count_cons_self]
        omega
      · have hrest := ih h
        rwa [List.cons_append, ← List.perm_middle.count_eq] at hrest

/-- **A submission is read back as it was created**, if it was in a year of four digits. In any open
store with intact tables, a create succeeds when the parts have distinct indexes. Reading the new id
then gives the submission back when the year of its creation and that of the clock are at most 9999:
the people from their JSON texts, the raw fields and the verdicts unchanged although empty ones are
kept as no value, the times in UTC, and the parts in ascending order. In later years it cannot be
read. When two parts share an index, the create is refused for such an index. -/
theorem create_read_back {store : Store} (hopen : store.isOpen = true) (hintact : store.Intact)
    {now : Timestamp} (hnow : now.InUtc) {s : Submission} (hs : s.Storable) :
    ((s.partList.map Part.index).Nodup →
      ∃ after new, store.create now s = .ok (after, new) ∧
        (now.year ≤ 9999 ∧ s.createdAt.year ≤ 9999 → store.ReadBack now s after new) ∧
        (¬ (now.year ≤ 9999 ∧ s.createdAt.year ≤ 9999) → ∃ e, after.get new.id = .error e)) ∧
    (¬ (s.partList.map Part.index).Nodup →
      ∃ index, 2 ≤ (s.partList.map Part.index).count index ∧
        store.create now s = .error (.duplicatePart index)) := by
  have hrepeated : Part.repeatedIndex? [] s.partList = none ↔
      (s.partList.map Part.index).Nodup := by
    simp [Part.repeatedIndex?_eq_none_iff]
  constructor
  · intro hdistinct
    obtain ⟨after, new, hcreate⟩ : ∃ after new, store.create now s = .ok (after, new) := by
      unfold Store.create
      rw [hopen, hrepeated.mpr hdistinct]
      exact ⟨_, _, rfl⟩
    have hcreated := Store.created_of_ok hcreate
    refine ⟨after, new, hcreate, fun ⟨hyear, hyear'⟩ => ?_, hcreated.unreadable hintact⟩
    exact hcreated.readBack hintact hs.worker hs.projectOwner (hnow.isUtc hyear).isKept
      (hs.createdAt.isUtc hyear').isKept
  · intro hshared
    obtain ⟨index, hindex⟩ : ∃ index, Part.repeatedIndex? [] s.partList = some index :=
      Option.ne_none_iff_exists'.mp (mt hrepeated.mp hshared)
    refine ⟨index, Part.count_of_repeatedIndex hindex, ?_⟩
    unfold Store.create
    rw [hopen, hindex]
    rfl

/-! ## A submission with a bit of everything -/

/-- A submission with characters that JSON escapes, without a verdict, with a raw field that is not
compact, and with its parts out of order. -/
def Submission.mixed : Submission :=
  { projectId := "p"
    batchId := "b"
    feedback := "kept"
    parts := some [{ index := 7, status := .approved }, { index := -2, feedback := "no" }]
    worker := some { id := 5, firstName := "<Ada>", lastName := "\"&\" \u2028" }
    instructions := " \x7b\"a\": <1>\x7d"
    createdAt := ⟨2026, 2, 28, 23, 59, 59, 120000000, 0⟩ }

/-- A store in which the last submission was deleted. -/
def Store.withGap : Store :=
  { lastId := 3
    submissions := [.ofSubmission { id := 2 }]
    parts := [⟨2, 0, none, none⟩] }

theorem Submission.storable_mixed : Submission.mixed.Storable where
  worker := by
    intro p hp
    obtain rfl := Option.some.inj hp
    exact (rfl : fitsWord 5 = true)
  projectOwner := by
    intro p hp
    cases hp
  createdAt := ⟨by decide, by decide, by decide, by decide, by decide, by decide, rfl⟩

theorem Store.intact_withGap : Store.withGap.Intact := by
  constructor <;> simp [withGap, ids, partKey, SubmissionRow.ofSubmission]

theorem mixed_read_back :
    ∃ after new, Store.withGap.create (Clock.ofNanos 0) .mixed = .ok (after, new) ∧
      new.id = 4 ∧ after.get 4 = .ok
        { Submission.mixed with
          id := 4
          parts := some [{ index := -2, feedback := "no" }, { index := 7, status := .approved }]
          updatedAt := ⟨1970, 1, 1, 0, 0, 0, 0, 0⟩ } := by
  have hnow : (Clock.ofNanos 0).InUtc :=
    ⟨by decide, by decide, by decide, by decide, by decide, by decide, rfl⟩
  have hopen : Store.withGap.isOpen = true := rfl
  obtain ⟨hok, -⟩ :=
    create_read_back hopen Store.intact_withGap hnow Submission.storable_mixed
  obtain ⟨after, new, hcreate, hread, -⟩ := hok (by decide)
  have hback := hread (by decide)
  obtain ⟨parts, hperm, hascending, hget⟩ := hback.read
  have hid : new.id = 4 := (Store.created_of_ok hcreate).new_id
  -- there is one way for the two parts to ascend
  have hparts : parts =
      [{ index := -2, feedback := "no" }, { index := 7, status := .approved }] :=
    Part.eq_of_ascending hascending (by decide) (hperm.trans (List.Perm.swap _ _ []))
  refine ⟨after, new, hcreate, hid, ?_⟩
  rw [hid, hparts] at hget
  exact hget

/-- A submission of a year with five digits. -/
def Submission.distant : Submission := { createdAt := ⟨10000, 1, 1, 0, 0, 0, 0, 0⟩ }

/-- A closed store takes no submission, and an open one takes one that cannot be read. -/
theorem not_always_read_back :
    (∃ e, Store.withGap.close.create .zero {} = .error e) ∧
      ∃ after new, Store.withGap.create .zero .distant = .ok (after, new) ∧
        ∃ e, after.get new.id = .error e := by
  have hcreate : Store.withGap.create .zero .distant = .ok (_, _) := rfl
  exact ⟨⟨_, rfl⟩, _, _, hcreate,
    (Store.created_of_ok hcreate).unreadable Store.intact_withGap (by decide)⟩

end ReviewQueue
