import ReviewQueue.Proofs.Domain.Codec

/-!
# Round trips over the wire

What is written is decoded as it was, and what any accepted text is decoded to is written as a text
that writing and reading no longer change. Both hold for every type that the service sends or
takes. The one thing that can be read and not written is a time whose zone is a day or more, and
the one thing that can be written and not read is a submission whose raw field alone is as high as
a text may be.

* `wire_round_trip` — both properties, type by type;
* `nested_readValue` — a text of any height;
* `far_zone_and_deep_raw` — why zones have to be less than a day, and raw fields lower than a text.
-/

namespace ReviewQueue

open Json

/-- A type of the wire: the JSON form of a value, and how a text is decoded. -/
structure Format (α : Type) where
  json? : α → Option (List Char)
  decode? : List Char → Option α

namespace Format

/-- Values of a kind are written, and decoded as they were but for what `settled` does. -/
def Faithful (f : Format α) (Carried : α → Prop) (settled : α → α) : Prop :=
  ∀ v, Carried v → ∃ t, f.json? v = some t ∧ f.decode? t = some (settled v)

/-- What an accepted text is decoded to is written as a text that settles: decoding and writing
give that text again. -/
def Settles (f : Format α) (IsNear : α → Prop) : Prop :=
  ∀ t v, f.decode? t = some v → IsNear v →
    ∃ u w, f.json? v = some u ∧ f.decode? u = some w ∧ f.json? w = some u

end Format

def Submission.format : Format Submission := ⟨json?, Json.decode? {} fill⟩

def Verdict.format : Format Verdict := ⟨fun v => some v.json, Json.decode? {} fill⟩

def SummaryList.format : Format SummaryList := ⟨json?, Json.decode? {} fill⟩

def Attachment.listFormat : Format (Option (List (Option Attachment))) :=
  ⟨listJson?, Json.decode? none fillAll⟩

def StatusOptionList.format : Format StatusOptionList :=
  ⟨fun l => some l.json, Json.decode? {} fill⟩

def Refusal.format : Format Refusal := ⟨fun r => some r.json, Json.decode? {} fill⟩

/-! ## Raw fields in compact form -/

/-- A raw field that is absent, or a value in compact form that leaves room for one level more. -/
def IsCompactRaw (raw : String) : Prop :=
  raw = "" ∨ compact? raw.toList = some raw.toList ∧
    ∃ v, Json.read raw.toList = some v ∧ v.height < maxHeight

theorem compactRaw_of_isCompactRaw {raw : String} (h : IsCompactRaw raw) :
    compactRaw raw = raw := by
  rcases h with rfl | ⟨h, -⟩
  · exact compactRaw_empty
  · rw [compactRaw_of_compact h, String.ofList_toList]

theorem isRawWithin_of_isCompactRaw {raw : String} (h : IsCompactRaw raw) :
    IsRawWithin (maxHeight - 1) raw := by
  rcases h with rfl | ⟨-, v, hv, hheight⟩
  · exact .inl rfl
  · exact isRawWithin_of_read hv (Nat.le_pred_of_lt hheight)

namespace Submission

/-- A submission whose raw fields are absent or in compact form. -/
structure RawsCompact (s : Submission) : Prop where
  instructions : IsCompactRaw s.instructions
  labelingConfig : IsCompactRaw s.labelingConfig
  taskData : IsCompactRaw s.taskData
  data : IsCompactRaw s.data

theorem compacted_of_rawsCompact {s : Submission} (h : s.RawsCompact) : s.compacted = s := by
  simp only [compacted, compactRaw_of_isCompactRaw h.instructions,
    compactRaw_of_isCompactRaw h.labelingConfig, compactRaw_of_isCompactRaw h.taskData,
    compactRaw_of_isCompactRaw h.data]

theorem RawsCompact.within {s : Submission} (h : s.RawsCompact) : s.RawsWithin (maxHeight - 1) :=
  ⟨isRawWithin_of_isCompactRaw h.instructions, isRawWithin_of_isCompactRaw h.labelingConfig,
    isRawWithin_of_isCompactRaw h.taskData, isRawWithin_of_isCompactRaw h.data⟩

theorem faithful :
    format.Faithful (fun s => s.Portable ∧ s.IsNear ∧ s.RawsCompact) (fun s => s) := by
  rintro s ⟨hs, hnear, hraws⟩
  obtain ⟨t, ht⟩ := exists_json hraws.within hnear
  have hdecode := (prints hs hraws.within (by decide) (by decide) ht).decode (by decide)
  rw [compacted_of_rawsCompact hraws] at hdecode
  exact ⟨t, ht, hdecode⟩

theorem settles : format.Settles IsNear := by
  intro t s hdecode hnear
  obtain ⟨hs, hraws⟩ := portable_of_decode hdecode
  have hwithin := hraws.within (by decide)
  obtain ⟨u, hu⟩ := exists_json hwithin hnear
  have hprints := prints hs hwithin (by decide) (by decide) hu
  exact ⟨u, s.compacted, hu, hprints.decode (by decide), json?_compacted hu⟩

end Submission

/-! ## The other types -/

/-- When all that was read is carried, and comes back with the same JSON form, it is settled. -/
theorem Format.Faithful.settles {f : Format α} {Carried IsNear : α → Prop} {settled : α → α}
    (h : f.Faithful Carried settled) (hjson : ∀ v, f.json? (settled v) = f.json? v)
    (hcarried : ∀ t v, f.decode? t = some v → IsNear v → Carried v) : f.Settles IsNear := by
  intro t v hdecode hnear
  obtain ⟨u, hu, hread⟩ := h v (hcarried t v hdecode hnear)
  exact ⟨u, settled v, hu, hread, by rw [hjson, hu]⟩

theorem Verdict.faithful :
    Verdict.format.Faithful Verdict.Portable Verdict.trimmed :=
  fun v hv => ⟨v.json, rfl, (prints hv).decode (by decide)⟩

theorem SummaryList.faithful :
    SummaryList.format.Faithful (fun l => l.Portable ∧ l.IsNear) (fun l => l) := by
  rintro l ⟨hl, hnear⟩
  obtain ⟨t, ht⟩ := exists_json hnear
  exact ⟨t, ht, (prints hl ht).decode (by decide)⟩

theorem Attachment.faithful :
    Attachment.listFormat.Faithful (fun items => ListPortable items ∧ ListNear items)
      (fun items => items) := by
  rintro items ⟨hitems, hnear⟩
  obtain ⟨t, ht⟩ := exists_listJson hnear
  exact ⟨t, ht, (prints_listJson hitems ht).decode (by decide)⟩

theorem StatusOptionList.faithful :
    StatusOptionList.format.Faithful (fun _ => True) (fun v => v) :=
  fun l _ => ⟨l.json, rfl, (prints l).decode (by decide)⟩

theorem Refusal.faithful : Refusal.format.Faithful (fun _ => True) (fun v => v) :=
  fun r _ => ⟨r.json, rfl, (prints r).decode (by decide)⟩

/-- **Whatever goes over the wire comes back, and whatever is read settles.** The values that are
carried have numbers of a word, times of the calendar with zones of less than a day, and raw fields
in compact form that are lower than a text may be; an empty list of part verdicts comes back as
none. -/
theorem wire_round_trip :
    (Submission.format.Faithful (fun s => s.Portable ∧ s.IsNear ∧ s.RawsCompact) (fun s => s) ∧
      Submission.format.Settles Submission.IsNear) ∧
    (Verdict.format.Faithful Verdict.Portable Verdict.trimmed ∧
      Verdict.format.Settles fun _ => True) ∧
    (SummaryList.format.Faithful (fun l => l.Portable ∧ l.IsNear) (fun l => l) ∧
      SummaryList.format.Settles SummaryList.IsNear) ∧
    (Attachment.listFormat.Faithful
        (fun items => Attachment.ListPortable items ∧ Attachment.ListNear items)
      (fun items => items) ∧
      Attachment.listFormat.Settles Attachment.ListNear) ∧
    (StatusOptionList.format.Faithful (fun _ => True) (fun v => v) ∧
      StatusOptionList.format.Settles fun _ => True) ∧
    (Refusal.format.Faithful (fun _ => True) (fun v => v) ∧
      Refusal.format.Settles fun _ => True) := by
  refine ⟨⟨Submission.faithful, Submission.settles⟩, ⟨Verdict.faithful, ?_⟩,
    ⟨SummaryList.faithful, ?_⟩, ⟨Attachment.faithful, ?_⟩, ⟨StatusOptionList.faithful, ?_⟩,
    ⟨Refusal.faithful, ?_⟩⟩
  · exact Verdict.faithful.settles (fun v => congrArg some v.json_trimmed)
      fun _ _ h _ => Verdict.portable_of_decode h
  · exact SummaryList.faithful.settles (fun _ => rfl)
      fun _ _ h hnear => ⟨SummaryList.portable_of_decode h, hnear⟩
  · exact Attachment.faithful.settles (fun _ => rfl)
      fun _ _ h hnear => ⟨Attachment.listPortable_of_decode h, hnear⟩
  · exact StatusOptionList.faithful.settles (fun _ => rfl) fun _ _ _ _ => trivial
  · exact Refusal.faithful.settles (fun _ => rfl) fun _ _ _ _ => trivial

/-! ## What does not come back -/

/-- As many empty arrays inside one another. -/
def nested : Nat → List Char
  | 0 => []
  | n + 1 => '[' :: (nested n ++ [']'])

theorem nested_length (n : Nat) : (nested n).length = 2 * n := by
  induction n with
  | zero => rfl
  | succ n ih =>
      simp only [nested, List.length_cons, List.length_append, List.length_nil, ih]
      omega

theorem nested_readValue (n fuel : Nat) (hfuel : 2 * n < fuel) (x : List Char) :
    ∃ v, readValue fuel (nested (n + 1) ++ x) = some (v, x) ∧ v.height = n + 1 := by
  obtain ⟨fuel, rfl⟩ : ∃ f, fuel = f + 1 := ⟨fuel - 1, by omega⟩
  induction n generalizing fuel x with
  | zero =>
      have hclosed : skipSpaces (']' :: x) = ']' :: x :=
        skipSpaces_of_solid (solid_cons (by decide) x)
      refine ⟨.array [], ?_, rfl⟩
      simp only [nested, List.nil_append, List.cons_append, readValue, hclosed]
  | succ n ih =>
      obtain ⟨fuel, rfl⟩ : ∃ f, fuel = f + 2 := ⟨fuel - 2, by omega⟩
      obtain ⟨v, hread, hheight⟩ := ih (']' :: x) fuel (by omega)
      have hopen : nested (n + 2) ++ x = '[' :: (nested (n + 1) ++ ']' :: x) := by
        simp [nested]
      have hinner : skipSpaces (nested (n + 1) ++ ']' :: x) = nested (n + 1) ++ ']' :: x :=
        skipSpaces_of_solid (solid_cons (by decide) _)
      have hclosed : skipSpaces (']' :: x) = ']' :: x :=
        skipSpaces_of_solid (solid_cons (by decide) x)
      have hitems : readItems (fuel + 2) (nested (n + 1) ++ ']' :: x) = some ([v], x) := by
        simp only [readItems, hread, hclosed]
      refine ⟨.array [v], ?_, ?_⟩
      · rw [hopen, readValue, hinner]
        exact congrArg (Option.map fun p => (array p.1, p.2)) hitems
      · simp [height, itemsHeight, hheight]

theorem squeezes_nested (n : Nat) : Squeezes (nested n) (nested n) := by
  induction n with
  | zero => exact .nil
  | succ n ih => exact .cons (by decide) (by decide) (ih.append (.self (by simp [isSpace])))

theorem isText_nested {n : Nat} (hpos : 0 < n) : IsText n (nested n) := by
  obtain ⟨n, rfl⟩ := Nat.exists_eq_succ_of_ne_zero (Nat.ne_of_gt hpos)
  have hreads : Reads (n + 1) (nested (n + 1)) := by
    intro fuel x hfuel _
    rw [nested_length] at hfuel
    obtain ⟨v, hread, hheight⟩ := nested_readValue n fuel (by omega) x
    exact ⟨v, hread, Nat.le_of_eq hheight⟩
  exact ⟨hreads, by rwa [(squeezes_nested (n + 1)).eq]⟩

/-- A text of nested arrays is no lower than it is deep. -/
theorem le_of_reads_nested {n m : Nat} (hpos : 0 < n) (h : Reads m (nested n)) : n ≤ m := by
  obtain ⟨n, rfl⟩ := Nat.exists_eq_succ_of_ne_zero (Nat.ne_of_gt hpos)
  have hfuel : 2 * (nested (n + 1)).length ≤ 2 * (2 * (n + 1)) :=
    Nat.le_of_eq (congrArg (2 * ·) (nested_length (n + 1)))
  obtain ⟨v, hread, hle⟩ := h (2 * (2 * (n + 1))) [] hfuel stops_nil
  obtain ⟨w, hread', hheight⟩ := nested_readValue n (2 * (2 * (n + 1))) (by omega) []
  obtain ⟨rfl, -⟩ := Prod.mk.inj (Option.some.inj (hread.symm.trans hread'))
  omega

/-- A submission that is written, and whose raw data is as high as a text may be, is not read. -/
theorem not_read_of_nested {s : Submission} {t : List Char} (hs : s.Portable)
    (hdata : s.data = .ofList (nested maxHeight)) (h : s.json? = some t) :
    Submission.format.decode? t = none := by
  by_contra hsome
  obtain ⟨shown, hshown⟩ := Option.ne_none_iff_exists'.mp hsome
  have heq : shown = s.compacted :=
    Submission.eq_of_decode hs h blanks_nil (by rwa [List.append_nil])
  have hcompact : compact? s.data.toList = some (nested maxHeight) := by
    rw [hdata, String.toList_ofList, compact?_of_isText (isText_nested (by decide)) (Nat.le_refl _),
      (squeezes_nested _).eq]
  have hraw : IsRaw (maxHeight - 1) shown.data := (Submission.portable_of_decode hshown).2.data
  rw [heq, Submission.compacted, compactRaw_of_compact hcompact] at hraw
  rcases hraw with hempty | htext
  · exact (isText_nested (by decide : 0 < maxHeight)).reads.ofList_ne_empty hempty
  · rw [String.toList_ofList] at htext
    exact absurd (le_of_reads_nested (by decide) htext.reads) (by decide)

theorem Submission.portable_of_data (raw : String) : Portable { data := raw } :=
  { portable_blank with }

/-- A time with a zone of a whole day is read, and cannot be written. A submission with raw data as
high as a text may be is written, and cannot be read. -/
theorem far_zone_and_deep_raw :
    (∃ s : Submission,
      Submission.format.decode?
        "\x7b\"createdAt\":\"2024-01-01T00:00:00+24:00\"\x7d".toList = some s ∧
      Submission.format.json? s = none) ∧
    compact? (nested maxHeight) = some (nested maxHeight) ∧
    ∃ t, Submission.format.json? { data := .ofList (nested maxHeight) } = some t ∧
      Submission.format.decode? t = none := by
  have hrefused : (Submission.format.decode?
      "\x7b\"createdAt\":\"2024-01-01T00:00:00+24:00\"\x7d".toList).map
        Submission.format.json? = some none := by
    decide +kernel
  have hcompact : compact? (nested maxHeight) = some (nested maxHeight) := by
    rw [compact?_of_isText (isText_nested (by decide)) (Nat.le_refl _), (squeezes_nested _).eq]
  have hportable := Submission.portable_of_data (.ofList (nested maxHeight))
  have hraws : Submission.RawsWithin maxHeight { data := .ofList (nested maxHeight) } :=
    ⟨.inl rfl, .inl rfl, .inl rfl, .inr ⟨_, by rwa [String.toList_ofList],
      (isText_nested (by decide)).reads⟩⟩
  obtain ⟨t, ht⟩ := Submission.exists_json hraws ⟨Timestamp.isNear_zero, Timestamp.isNear_zero⟩
  have hunread := not_read_of_nested hportable rfl ht
  refine ⟨Option.map_eq_some_iff.mp hrefused, hcompact, t, ?_, hunread⟩
  exact ht

end ReviewQueue
