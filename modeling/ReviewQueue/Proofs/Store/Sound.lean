import Mathlib.Data.List.Nodup
import ReviewQueue.Proofs.Domain.Codec
import ReviewQueue.Proofs.Domain.Parts
import ReviewQueue.Proofs.Store.Reviewed

/-!
# Stores that hold what their columns can

The tables of a store have keys, and its columns have types: a number fits a word. `Store.Sound`
says so of a store value, which could hold more. What a sound store shows can go over the wire.

* `SubmissionRow.submission_ofSubmission` — a row is read back, column by column;
* `Sound.portable` — a submission of a sound store has a JSON form that is read back;
* `Sound.reviewed` — a review leaves a store sound.
-/

namespace ReviewQueue

/-! ## Rows read back -/

/-- A person is read back from the column that keeps it. -/
theorem Column.person_ofPerson {o : Option Person} (h : ∀ p ∈ o, p.Portable) :
    Column.person (Column.ofPerson o) = o := by
  cases o with
  | none => rfl
  | some p =>
      have hprints := Person.prints (h p rfl)
      simp only [Column.ofPerson, Column.person, Option.map_some, Option.bind_some,
        if_neg hprints.reads.ofList_ne_empty, String.toList_ofList, hprints.decode (by decide)]

/-- A row is read back column by column. Only the times go through texts that not every time has. -/
theorem SubmissionRow.submission_ofSubmission {s : Submission}
    (hworker : ∀ p ∈ s.worker, p.Portable) (howner : ∀ p ∈ s.projectOwner, p.Portable)
    (parts : List Part) :
    (ofSubmission s).submission parts =
      { s with
        parts := some parts
        createdAt := .ofColumn s.createdAt.column
        updatedAt := .ofColumn s.updatedAt.column } := by
  simp only [ofSubmission, submission, Column.text_ofText, Column.person_ofPerson hworker,
    Column.person_ofPerson howner]

/-- The person of a column is one that was read. -/
theorem Column.person_portable {c : Option String} : ∀ p ∈ Column.person c, p.Portable := by
  intro p hp
  obtain ⟨s, -, hs⟩ := Option.bind_eq_some_iff.mp hp
  split at hs
  · cases hs
  · exact Person.keeps.decode Person.portable_blank hs

/-! ## Sound stores -/

/-- A row whose columns hold what they can. Ids are given from one on. -/
structure SubmissionRow.Sound (r : SubmissionRow) : Prop where
  positive : 0 < r.id
  id : fitsWord r.id = true
  timeElapsed : fitsWord r.timeElapsed = true

namespace Store

/-- A store that holds what its tables can: one row for every key, and in every column a value of
its type. -/
structure Sound (store : Store) : Prop where
  ids : (store.submissions.map SubmissionRow.id).Nodup
  keys : (store.parts.map fun r => (r.submissionId, r.index)).Nodup
  rows : ∀ r ∈ store.submissions, r.Sound
  indexes : ∀ r ∈ store.parts, fitsWord r.index = true

variable {store : Store}

theorem Sound.portable (h : store.Sound) {id : Int} {s : Submission}
    (hget : store.get id = .ok s) : s.Portable := by
  obtain ⟨-, r, hrow, hread, rfl⟩ := get_eq_ok_iff.mp hget
  have hr := h.rows r (row?_eq_some hrow).1
  refine ⟨hr.id, hr.timeElapsed, ?_, Column.person_portable, Column.person_portable,
    Timestamp.isReal_ofColumn hread.createdAt, Timestamp.isReal_ofColumn hread.updatedAt⟩
  intro p hp
  obtain ⟨q, hq, -, rfl⟩ := mem_partsOf.mp hp
  exact h.indexes q hq

theorem Sound.positive (h : store.Sound) {id : Int} {s : Submission}
    (hget : store.get id = .ok s) : 0 < id := by
  obtain ⟨-, r, hrow, -, rfl⟩ := get_eq_ok_iff.mp hget
  obtain ⟨hmem, rfl⟩ := row?_eq_some hrow
  exact (h.rows r hmem).positive

/-- The parts of a submission have one index each. -/
theorem Sound.nodup_indexes (h : store.Sound) (id : Int) :
    ((store.partsOf id).map Part.index).Nodup := by
  have hperm : ((store.partsOf id).map Part.index).Perm
      ((store.parts.filter (·.submissionId == id)).map PartRow.index) := by
    have hsort := (Part.perm_sort ((store.parts.filter (·.submissionId == id)).map
      PartRow.part)).map Part.index
    rwa [List.map_map] at hsort
  refine hperm.nodup_iff.mpr ?_
  refine List.Nodup.of_map (fun index => (id, index)) ?_
  rw [List.map_map]
  -- the rows of one submission differ in the index alone
  have hsame : (store.parts.filter (·.submissionId == id)).map
        ((fun index => (id, index)) ∘ PartRow.index) =
      (store.parts.filter (·.submissionId == id)).map fun r => (r.submissionId, r.index) := by
    apply List.map_congr_left
    intro r hr
    have hid : r.submissionId = id := by simpa using (List.mem_filter.mp hr).2
    rw [Function.comp_apply, hid]
  rw [hsame]
  exact h.keys.sublist (List.filter_sublist.map _)

theorem partsOf_sorted (store : Store) (id : Int) :
    (store.partsOf id).Pairwise fun a b => a.index ≤ b.index := by
  unfold partsOf
  exact Part.sorted_sort _

/-- In a sound store the indexes ascend strictly. -/
theorem Sound.ascending (h : store.Sound) (id : Int) :
    ((store.partsOf id).map Part.index).Pairwise (· < ·) := by
  have hle : ((store.partsOf id).map Part.index).Pairwise (· ≤ ·) :=
    List.pairwise_map.mpr (partsOf_sorted store id)
  exact (hle.and (h.nodup_indexes id)).imp fun hab => by omega

/-- Parts that were read are sorted already. -/
theorem sort_partsOf (store : Store) (id : Int) :
    Part.sort (store.partsOf id) = store.partsOf id :=
  Part.sort_of_sorted (partsOf_sorted store id)

/-- A review leaves a store sound. -/
theorem Sound.reviewed (h : store.Sound) (now : Timestamp) (id : Int) {v : Verdict}
    (hv : fitsWord v.timeElapsed = true) :
    (store.reviewed now id v).Sound where
  ids := by
    rw [reviewed_submissions, List.map_map]
    simpa only [Function.comp_def, SubmissionRow.decided_id] using h.ids
  keys := by
    have hkeys := h.keys
    simp only [Store.reviewed, List.map_map, Function.comp_def, PartRow.decided_submissionId,
      PartRow.decided_index]
    exact hkeys
  rows := by
    rw [reviewed_submissions]
    intro r' hr'
    obtain ⟨r, hr, rfl⟩ := List.mem_map.mp hr'
    have hrow := h.rows r hr
    unfold SubmissionRow.decided
    split
    · exact { hrow with timeElapsed := hv }
    · exact hrow
  indexes := by
    intro r' hr'
    obtain ⟨r, hr, rfl⟩ := List.mem_map.mp hr'
    rw [PartRow.decided_index]
    exact h.indexes r hr

end Store
end ReviewQueue
