import ReviewQueue.Clock
import ReviewQueue.Proofs.Timestamp
import ReviewQueue.Store.Row

/-!
# Times in the columns of the store

A time is stored as a text, and a row can only be read when the texts of its times can. Of the times
that can be stored, those of a year with four digits and of a zone of at most 23 minutes are read
back as they were, and no others.

* `Timestamp.ofColumn?_column_iff` — which times are read back;
* `Moment` — a reading of the clock, which is such a time;
* `SubmissionRow.submission?_eq_ok_iff`, … — what is read from a row, and from which rows.
-/

namespace ReviewQueue

namespace Timestamp

/-! ## Times that are read back -/

/-- A time of the calendar, in a year of four digits and in a zone of at most 23 minutes. -/
structure IsKept (t : Timestamp) : Prop where
  isReal : t.IsReal
  zone : t.offset.natAbs ≤ 23

theorem isKept_iff {t : Timestamp} :
    t.IsKept ↔ (t.year ≤ 9999 ∧ (1 ≤ t.month ∧ t.month ≤ 12) ∧
      (1 ≤ t.day ∧ t.day ≤ daysIn t.year t.month) ∧ t.hour < 24 ∧ t.minute < 60 ∧ t.second < 60 ∧
      t.nanos < 1000000000) ∧ t.offset.natAbs ≤ 23 :=
  ⟨fun ⟨⟨hyear, hmonth, hday, hhour, hminute, hsecond, hnanos⟩, hzone⟩ =>
    ⟨⟨hyear, hmonth, hday, hhour, hminute, hsecond, hnanos⟩, hzone⟩,
    fun ⟨⟨hyear, hmonth, hday, hhour, hminute, hsecond, hnanos⟩, hzone⟩ =>
    ⟨⟨hyear, hmonth, hday, hhour, hminute, hsecond, hnanos⟩, hzone⟩⟩

instance (t : Timestamp) : Decidable t.IsKept := decidable_of_iff _ isKept_iff.symm

theorem IsKept.isNear {t : Timestamp} (h : t.IsKept) : t.IsNear :=
  Nat.lt_of_le_of_lt h.zone (by decide)

theorem isKept_zero : zero.IsKept := ⟨isReal_zero, by decide⟩

/-- The hours and the minutes of a zone, two digits each. -/
def zoneDigits (offset : Int) : List Char :=
  Text.padded 2 (offset.natAbs / 60) ++ Text.padded 2 (offset.natAbs % 60)

/-- The name with which a zone is stored. -/
def zoneName (offset : Int) : List Char :=
  if offset = 0 then ['U', 'T', 'C'] else (if offset < 0 then '-' else '+') :: zoneDigits offset

theorem columnZone_eq (offset : Int) :
    columnZone offset =
      (if offset < 0 then '-' else '+') :: (zoneDigits offset ++ ' ' :: zoneName offset) := by
  simp [columnZone, zoneDigits, zoneName]

theorem isZoneName_zoneName {offset : Int} (h : offset.natAbs / 60 < 100) :
    isZoneName (zoneName offset) = true ↔ offset.natAbs ≤ 23 := by
  have hhours : (Text.padded 2 (offset.natAbs / 60)).length = 2 :=
    Text.length_padded (by decide) h
  have hminutes : (Text.padded 2 (offset.natAbs % 60)).length = 2 :=
    Text.length_padded (by decide) (by omega)
  have hvalue : Text.digitsValue (zoneDigits offset) =
      offset.natAbs / 60 * 100 + offset.natAbs % 60 := by
    rw [zoneDigits, Text.digitsValue_shift, hminutes, Text.digitsValue_padded,
      Text.digitsValue_padded]
    rfl
  have hdigits : (zoneDigits offset).all Text.isDigit = true := by
    rw [List.all_eq_true]
    intro c hc
    rcases List.mem_append.mp hc with hc | hc <;> exact Text.isDigit_of_mem_padded hc
  have hnonempty : (zoneDigits offset).isEmpty = false := by
    rw [List.isEmpty_eq_false_iff, ← List.length_pos_iff, zoneDigits, List.length_append, hhours]
    omega
  unfold zoneName
  split
  · rename_i hzero
    simp [hzero, isZoneName]
  · have hsign : readSign ((if offset < 0 then '-' else '+') :: zoneDigits offset) =
        some (if offset < 0 then -1 else 1, zoneDigits offset) := by
      split <;> rfl
    have hutc : ((if offset < 0 then '-' else '+') :: zoneDigits offset == ['U', 'T', 'C']) =
        false := by
      split <;> simp
    simp only [isZoneName, hutc, hsign, hnonempty, hdigits, hvalue, Bool.false_or, Bool.not_false,
      Bool.and_self, Bool.true_and, decide_eq_true_eq]
    omega

/-- A zone is read where its name can be. -/
theorem readColumnZone_columnZone {offset : Int} (h : offset.natAbs / 60 < 100) :
    readColumnZone (columnZone offset) = if offset.natAbs ≤ 23 then some offset else none := by
  have hread (n : Nat) (h : n < 100) (x : List Char) :
      readFixed 2 (Text.padded 2 n ++ x) = some (n, x) := readFixed_padded (by decide) h x
  have hsign (x : List Char) : readSign ((if offset < 0 then '-' else '+') :: x) =
      some (if offset < 0 then -1 else 1, x) := by
    split <;> rfl
  have hname := isZoneName_zoneName h
  rw [columnZone_eq]
  simp only [readColumnZone, bind, Option.bind, hsign, zoneDigits, List.append_assoc,
    hread _ h, hread (offset.natAbs % 60) (by omega), expect_cons]
  by_cases hkept : offset.natAbs ≤ 23
  · rw [if_neg (by simp [hname.mpr hkept]; omega), if_pos hkept]
    by_cases hzero : offset = 0
    · simp [zoneName, hzero]
    · have hutc : zoneName offset ≠ ['U', 'T', 'C'] := by
        unfold zoneName
        rw [if_neg hzero]
        split <;> simp
      rw [if_neg hutc]
      congr 1
      split <;> omega
  · rw [if_pos (.inr (.inr (by simpa using mt hname.mp hkept))), if_neg hkept]

/-- No zone is read that is more than a day and a minute away. -/
theorem natAbs_le_of_readColumnZone {s : List Char} {offset : Int}
    (h : readColumnZone s = some offset) : offset.natAbs ≤ 1500 := by
  simp only [readColumnZone, bind, Option.bind_eq_some_iff, Prod.exists] at h
  obtain ⟨sign, s1, hsign, hours, s2, -, minutes, s3, -, name, -, h⟩ := h
  have hone : sign = 1 ∨ sign = -1 := by
    unfold readSign at hsign
    split at hsign
    · exact .inl (congrArg Prod.fst (Option.some.inj hsign)).symm
    · exact .inr (congrArg Prod.fst (Option.some.inj hsign)).symm
    · cases hsign
  split at h
  · cases h
  · rename_i hrange
    split at h
    · obtain rfl := Option.some.inj h
      decide
    · obtain rfl := Option.some.inj h
      rcases hone with rfl | rfl <;> omega

/-- The date and the time of day are read back from a column, and the zone if it can be. -/
theorem ofColumn?_column {t : Timestamp} (ht : t.IsReal) :
    ofColumn? t.column =
      (readColumnZone (columnZone t.offset)).bind fun offset => ofDate? { t with offset } := by
  have hdays := daysIn_le t.year t.month
  obtain ⟨hyear, hmonth, hday, hhour, hminute, hsecond, hnanos⟩ := ht
  have htwo (n : Nat) (h : n < 100) (x : List Char) :
      readFixed 2 (Text.padded 2 n ++ x) = some (n, x) := readFixed_padded (by decide) h x
  have hfraction := readFraction_fractionText hnanos (x := ' ' :: columnZone t.offset) (by
    intro c hc
    obtain rfl := Option.some.inj hc
    decide)
  simp only [column, dateText, clockText, List.append_assoc, List.cons_append]
  rw [ofColumn?, String.toList_ofList, readFixed_padded (by decide) (Nat.lt_succ_of_le hyear)]
  simp only [bind, Option.bind, expect_cons, htwo t.month (by omega), htwo t.day (by omega),
    htwo t.hour (by omega), htwo t.minute (by omega), htwo t.second (by omega), hfraction]

/-- What is read from a column is a date and a time of day. -/
theorem isReal_of_ofColumn? {s : String} {t : Timestamp} (h : ofColumn? s = some t) :
    t.IsReal := by
  simp only [ofColumn?, bind, Option.bind_eq_some_iff, Prod.exists] at h
  obtain ⟨year, s1, hyear, s2, -, month, s3, -, s4, -, day, s5, -, s6, -, hour, s7, -, s8, -,
    minute, s9, -, s10, -, second, s11, -, s12, -, offset, -, h⟩ := h
  exact isReal_of_ofDate? (Nat.le_of_lt_succ (lt_of_readFixed hyear)) (readFraction_lt s11) h

theorem IsKept.ofColumn?_column {t : Timestamp} (h : t.IsKept) : ofColumn? t.column = some t := by
  have hzone := h.zone
  rw [Timestamp.ofColumn?_column h.isReal, readColumnZone_columnZone (by omega), if_pos hzone]
  exact ofDate?_of_isReal h.isReal

theorem IsKept.isSome_ofColumn? {t : Timestamp} (h : t.IsKept) : (ofColumn? t.column).isSome :=
  Option.isSome_iff_exists.mpr ⟨t, h.ofColumn?_column⟩

/-- **The times that are read back** are those of a year with four digits and of a zone of at most
23 minutes. -/
theorem ofColumn?_column_iff {t : Timestamp} : ofColumn? t.column = some t ↔ t.IsKept := by
  refine ⟨fun h => ?_, IsKept.ofColumn?_column⟩
  have hreal := isReal_of_ofColumn? h
  refine ⟨hreal, ?_⟩
  rw [ofColumn?_column hreal] at h
  obtain ⟨offset, hzone, hdate⟩ := Option.bind_eq_some_iff.mp h
  have hoffset : t.offset = offset := by
    unfold ofDate? at hdate
    split at hdate
    · exact congrArg Timestamp.offset (Option.some.inj hdate).symm
    · cases hdate
  have hbound := natAbs_le_of_readColumnZone hzone
  rw [← hoffset] at hbound
  rw [readColumnZone_columnZone (by omega)] at hzone
  split at hzone
  · assumption
  · cases hzone

/-- A time in a zone of 24 minutes or more is not read back. -/
theorem ofColumn?_column_of_zone {t : Timestamp} (ht : t.IsReal) (hnear : t.IsNear)
    (hzone : 23 < t.offset.natAbs) : ofColumn? t.column = none := by
  have hfar : ¬ t.offset.natAbs ≤ 23 := by omega
  have hzoned : t.offset.natAbs < 1440 := hnear
  rw [ofColumn?_column ht, readColumnZone_columnZone (by omega), if_neg hfar]
  rfl

/-- Neither is a time of a year with five digits. -/
theorem ofColumn?_column_of_year {t : Timestamp} (hyear : 9999 < t.year) :
    ofColumn? t.column = none := by
  have hdigits (c : Char) (hc : c ∈ Text.padded 4 t.year) : Text.isDigit c = true :=
    Text.isDigit_of_mem_padded hc
  have hlength : 4 < (Text.padded 4 t.year).length := by
    by_contra hshort
    have hlt := Text.digitsValue_lt hdigits
    rw [Text.digitsValue_padded] at hlt
    have hpow : 10 ^ (Text.padded 4 t.year).length ≤ 10 ^ 4 :=
      Nat.pow_le_pow_right (by decide) (by omega)
    omega
  -- the fifth digit stands where the month is expected
  obtain ⟨fifth, rest, hrest⟩ : ∃ fifth rest, (Text.padded 4 t.year).drop 4 = fifth :: rest :=
    List.exists_cons_of_length_pos (by rw [List.length_drop]; omega)
  have hfifth : fifth ≠ '-' := by
    rintro rfl
    exact absurd (hdigits '-' (List.mem_of_mem_drop (hrest ▸ List.mem_cons_self))) (by decide)
  rw [ofColumn?, column, String.toList_ofList, dateText]
  simp only [List.append_assoc]
  unfold readFixed
  rw [List.take_append_of_le_length (by omega), List.drop_append_of_le_length (by omega), hrest]
  simp only [bind, Option.bind]
  split
  · rfl
  · rename_i heq
    split at heq
    · cases heq
      simp [expect, hfifth]
    · cases heq

end Timestamp

/-- A reading of the clock: a time that is read back from the column it is stored in, such as any
time in UTC of a year with four digits. -/
structure Moment where
  time : Timestamp
  kept : time.IsKept

namespace Moment

instance : Coe Moment Timestamp := ⟨time⟩

/-- The earliest one. -/
def zero : Moment := ⟨.zero, Timestamp.isKept_zero⟩

end Moment

/-- A clock whose readings are read back from the columns in which they are stored, such as any
that gives times in UTC of years with four digits. -/
def Clock.Sound (c : Clock) : Prop := ∀ k, (c.time k).IsKept

theorem Clock.Sound.of_time {c c' : Clock} (h : c.Sound) (htime : c'.time = c.time) :
    c'.Sound := by
  intro k
  rw [htime]
  exact h k

/-! ## Rows that can be read -/

/-- The time of a column that can be read. The store fails at a column that cannot, so what stands
for its time here is never seen. -/
def Timestamp.ofColumn (text : String) : Timestamp := (ofColumn? text).getD zero

theorem Timestamp.IsKept.ofColumn_column {t : Timestamp} (h : t.IsKept) :
    ofColumn t.column = t := by
  rw [ofColumn, h.ofColumn?_column, Option.getD_some]

theorem Timestamp.isReal_ofColumn {text : String} (h : (ofColumn? text).isSome) :
    (ofColumn text).IsReal := by
  obtain ⟨t, ht⟩ := Option.isSome_iff_exists.mp h
  rw [ofColumn, ht]
  exact isReal_of_ofColumn? ht

namespace SubmissionRow

/-- A row of which both times can be read. -/
structure Readable (r : SubmissionRow) : Prop where
  createdAt : (Timestamp.ofColumn? r.createdAt).isSome
  updatedAt : (Timestamp.ofColumn? r.updatedAt).isSome

/-- The submission of a row that can be read. -/
def submission (r : SubmissionRow) (parts : List Part) : Submission :=
  { id := r.id
    projectId := r.projectId
    batchId := r.batchId
    title := r.title
    description := r.description
    status := ⟨Column.text r.status⟩
    feedback := Column.text r.feedback
    parts := some parts
    timeElapsed := r.timeElapsed
    worker := Column.person r.worker
    projectOwner := Column.person r.projectOwner
    interfaceType := r.interfaceType
    channelLink := r.channelLink
    instructions := Column.text r.instructions
    labelingConfig := Column.text r.labelingConfig
    taskData := Column.text r.taskData
    data := Column.text r.data
    createdAt := .ofColumn r.createdAt
    updatedAt := .ofColumn r.updatedAt }

/-- The row as a list shows it, if it can be read. -/
def summary (r : SubmissionRow) : Summary :=
  { id := r.id
    title := r.title
    status := ⟨Column.text r.status⟩
    worker := Column.person r.worker
    createdAt := .ofColumn r.createdAt }

variable {r : SubmissionRow} {parts : List Part}

theorem submission?_eq_ok_iff {s : Submission} :
    r.submission? parts = .ok s ↔ r.Readable ∧ r.submission parts = s := by
  unfold submission? submission Timestamp.ofColumn
  cases hcreated : Timestamp.ofColumn? r.createdAt with
  | none =>
      have hnot : ¬ r.Readable := fun h => by simpa [hcreated] using h.createdAt
      simp [readTime, hcreated, hnot, bind, Except.bind]
  | some created =>
      cases hupdated : Timestamp.ofColumn? r.updatedAt with
      | none =>
          have hnot : ¬ r.Readable := fun h => by simpa [hupdated] using h.updatedAt
          simp [readTime, hcreated, hupdated, hnot, bind, Except.bind]
      | some updated =>
          have hreadable : r.Readable := ⟨by simp [hcreated], by simp [hupdated]⟩
          simp [readTime, hcreated, hupdated, hreadable, bind, Except.bind, pure, Except.pure]

/-- The row of a submission can be read when both of its times are kept. -/
theorem readable_ofSubmission {s : Submission} (hcreated : s.createdAt.IsKept)
    (hupdated : s.updatedAt.IsKept) : (ofSubmission s).Readable :=
  ⟨hcreated.isSome_ofColumn?, hupdated.isSome_ofColumn?⟩

theorem summary?_eq_ok_iff {x : Summary} :
    r.summary? = .ok x ↔ (Timestamp.ofColumn? r.createdAt).isSome ∧ r.summary = x := by
  unfold summary? summary Timestamp.ofColumn
  cases hcreated : Timestamp.ofColumn? r.createdAt with
  | none => simp [readTime, hcreated, bind, Except.bind]
  | some created => simp [readTime, hcreated, bind, Except.bind, pure, Except.pure]

end SubmissionRow

/-- The attachment of a row that can be read. -/
def AttachmentRow.attachment (r : AttachmentRow) : Attachment :=
  ⟨r.id, r.submissionId, r.source, r.name, r.url, .ofColumn r.createdAt⟩

theorem AttachmentRow.attachment?_eq_ok_iff {r : AttachmentRow} {a : Attachment} :
    r.attachment? = .ok a ↔ (Timestamp.ofColumn? r.createdAt).isSome ∧ r.attachment = a := by
  unfold attachment? attachment Timestamp.ofColumn
  cases hcreated : Timestamp.ofColumn? r.createdAt with
  | none => simp [readTime, hcreated, bind, Except.bind]
  | some created => simp [readTime, hcreated, bind, Except.bind, pure, Except.pure]

/-- Rows are read one by one, and only when all of them can be. -/
theorem mapM_eq_ok_iff {ε : Type} {f : α → Except ε β} {view : α → β} {CanRead : α → Prop}
    (hf : ∀ a b, f a = .ok b ↔ CanRead a ∧ view a = b) {rows : List α} {items : List β} :
    rows.mapM f = .ok items ↔ (∀ a ∈ rows, CanRead a) ∧ rows.map view = items := by
  induction rows generalizing items with
  | nil => simp [pure, Except.pure]
  | cons a rows ih =>
      rw [List.mapM_cons, List.forall_mem_cons, List.map_cons]
      cases ha : f a with
      | error e =>
          have hnot : ¬ CanRead a := fun h => by
            rw [(hf a (view a)).mpr ⟨h, rfl⟩] at ha
            cases ha
          simp [hnot, bind, Except.bind]
      | ok b =>
          obtain ⟨hread, rfl⟩ := (hf a b).mp ha
          cases hrest : rows.mapM f with
          | error e =>
              have hnot : ¬ ∀ a ∈ rows, CanRead a := fun h => by
                rw [ih.mpr ⟨h, rfl⟩] at hrest
                cases hrest
              simp [hnot, bind, Except.bind]
          | ok rest =>
              obtain ⟨hall, rfl⟩ := ih.mp hrest
              simp only [hread, bind, Except.bind, pure, Except.pure, Except.ok.injEq, true_and]
              exact ⟨fun h => ⟨hall, h⟩, And.right⟩

end ReviewQueue
