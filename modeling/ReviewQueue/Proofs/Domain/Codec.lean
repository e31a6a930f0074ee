import ReviewQueue.Proofs.Json.Fill
import ReviewQueue.Proofs.Timestamp

/-!
# What goes over the wire comes back

Every record is decoded from its own JSON form. A raw field comes back in its compact form, a time
can only be written when its zone is less than a day, and an empty list of part verdicts is left
out. A submission is one higher than its raw fields, which are therefore lower than `maxHeight`
wherever it is read. Whatever text is accepted, what was read has numbers of a word and times of
the calendar.

* `Submission.prints`, `Verdict.prints`, … — a record is decoded from its JSON form;
* `Submission.portable_of_decode`, … — what any accepted text is decoded to.
-/

namespace ReviewQueue

open Json

/-! ## Verdict labels -/

variable {n : Nat}

theorem Status.prints (s old : Status) : Prints n Status.fill old s.json s := by
  have h := prints_string (n := n) s.label old.label
  exact ⟨h.reads, by rw [Status.fill, Status.json, h.fills]; rfl⟩

/-! ## People -/

namespace Person

/-- A person whose number fits a word. -/
def Portable (p : Person) : Prop := fitsWord p.id = true

theorem portable_blank : Portable {} := (rfl : fitsWord 0 = true)

theorem prints {p : Person} (h : p.Portable) : Prints 1 Person.fill {} p.json p := by
  refine Builds.prints (by decide) ?_ (Nat.zero_le _)
  exact .field (prints_int h _) <| .field (prints_string _ _) <| .field (prints_string _ _) <|
    .nonEmptyText rfl .nil

theorem keeps : Keeps n Portable Person.fill := by
  refine (keeps_record ?_).of_le (Nat.le_succ n)
  simp only [fields, List.forall_mem_cons, List.not_mem_nil, false_implies, implies_true, and_true]
  exact ⟨keeps_int.field _ (fun _ h => h) (fun _ _ _ h => h),
    (keeps_trivial _).field _ (fun _ _ => trivial) (fun _ _ h _ => h),
    (keeps_trivial _).field _ (fun _ _ => trivial) (fun _ _ h _ => h),
    (keeps_trivial _).field _ (fun _ _ => trivial) (fun _ _ h _ => h)⟩

end Person

/-! ## Parts -/

namespace Part

/-- A part whose index fits a word. -/
def Portable (p : Part) : Prop := fitsWord p.index = true

theorem portable_blank : Portable {} := (rfl : fitsWord 0 = true)

theorem prints {p : Part} (h : p.Portable) : Prints 1 Part.fill {} p.json p := by
  refine Builds.prints (by decide) ?_ (Nat.zero_le _)
  exact .field (prints_int h _) <| .field (Status.prints _ _) <| .field (prints_string _ _) .nil

theorem keeps : Keeps n Portable Part.fill := by
  refine (keeps_record ?_).of_le (Nat.le_succ n)
  simp only [fields, List.forall_mem_cons, List.not_mem_nil, false_implies, implies_true, and_true]
  exact ⟨keeps_int.field _ (fun _ h => h) (fun _ _ _ h => h),
    (keeps_trivial _).field _ (fun _ _ => trivial) (fun _ _ h _ => h),
    (keeps_trivial _).field _ (fun _ _ => trivial) (fun _ _ h _ => h)⟩

end Part

/-! ## Raw fields -/

/-- The compact form of a raw field; a text that is no JSON stays as it is. -/
def compactRaw (raw : String) : String :=
  ((compact? raw.toList).map String.ofList).getD raw

/-- A raw field that is absent, or whose compact form is of this height at most. -/
def IsRawWithin (n : Nat) (raw : String) : Prop :=
  raw = "" ∨ ∃ t, compact? raw.toList = some t ∧ Reads n t

theorem compactRaw_empty : compactRaw "" = "" := by decide

theorem compactRaw_of_compact {raw : String} {t : List Char} (h : compact? raw.toList = some t) :
    compactRaw raw = .ofList t := by
  simp [compactRaw, h]

theorem ne_empty_of_compact {raw : String} {t : List Char} (h : compact? raw.toList = some t) :
    raw ≠ "" := by
  rintro rfl
  rw [show compact? "".toList = none by decide] at h
  cases h

theorem isRawWithin_of_isRaw {raw : String} (h : IsRaw n raw) (hn : n ≤ maxHeight) :
    IsRawWithin n raw :=
  h.imp id fun ht => ⟨_, compact?_of_isText ht hn, ht.compact⟩

theorem isRawWithin_of_read {raw : String} {v : Json} (h : Json.read raw.toList = some v)
    (hheight : v.height ≤ n) : IsRawWithin n raw := by
  have hcompact : compact? raw.toList = some (squeeze .outside raw.toList) := by
    rw [compact?, isValid, h]
    rfl
  obtain ⟨w, hw, -, hreads, -⟩ := compact?_spec hcompact
  obtain rfl := Option.some.inj (hw.symm.trans h)
  exact .inr ⟨_, hcompact, hreads.mono hheight⟩

/-- A raw member that is written is absent, or the text is the compact form of the field. -/
theorem rawMember?_eq_some_iff {name raw : String} {m : Option (String × List Char)} :
    rawMember? name raw = some m ↔
      raw = "" ∧ m = none ∨ ∃ t, compact? raw.toList = some t ∧ m = some (name, t) := by
  unfold rawMember?
  split
  · rename_i hempty
    subst hempty
    have hnone (t : List Char) : ¬ compact? "".toList = some t := fun h => ne_empty_of_compact h rfl
    simp only [hnone, false_and, exists_false, or_false, true_and, Option.some.injEq]
    exact eq_comm
  · rename_i hne
    simp only [hne, false_and, false_or, Option.map_eq_some_iff]
    exact exists_congr fun t => and_congr_right fun _ => eq_comm

theorem exists_rawMember (name : String) {raw : String} (h : IsRawWithin n raw) :
    ∃ m, rawMember? name raw = some m := by
  rcases h with rfl | ⟨t, ht, -⟩
  · exact ⟨none, rawMember?_eq_some_iff.mpr (.inl ⟨rfl, rfl⟩)⟩
  · exact ⟨_, rawMember?_eq_some_iff.mpr (.inr ⟨t, ht, rfl⟩)⟩

theorem isRawWithin_of_rawMember {name raw : String} {m : Option (String × List Char)}
    (h : rawMember? name raw = some m) : IsRawWithin maxHeight raw := by
  rcases rawMember?_eq_some_iff.mp h with ⟨rfl, -⟩ | ⟨t, ht, -⟩
  · exact .inl rfl
  · obtain ⟨v, -, hheight, hreads, -⟩ := compact?_spec ht
    exact .inr ⟨t, ht, hreads.mono hheight⟩

/-- A raw member that is written is written the same when it is compact already. -/
theorem rawMember?_compactRaw {name raw : String} {m : Option (String × List Char)}
    (h : rawMember? name raw = some m) : rawMember? name (compactRaw raw) = some m := by
  rcases rawMember?_eq_some_iff.mp h with ⟨rfl, rfl⟩ | ⟨t, ht, rfl⟩
  · rw [compactRaw_empty]
    rfl
  · obtain ⟨-, -, -, -, hcompact⟩ := compact?_spec ht
    rw [compactRaw_of_compact ht]
    exact rawMember?_eq_some_iff.mpr (.inr ⟨t, by rwa [String.toList_ofList], rfl⟩)

theorem isRawWithin_of_compactRaw {name raw : String} {m : Option (String × List Char)}
    (h : rawMember? name raw = some m) (hraw : IsRawWithin n (compactRaw raw)) :
    IsRawWithin n raw := by
  rcases rawMember?_eq_some_iff.mp h with ⟨rfl, -⟩ | ⟨t, ht, -⟩
  · exact .inl rfl
  · obtain ⟨-, -, -, -, hcompact⟩ := compact?_spec ht
    rw [compactRaw_of_compact ht] at hraw
    rcases hraw with hempty | ⟨t', ht', hreads⟩
    · exact absurd hempty (ne_empty_of_compact (by rwa [String.toList_ofList]))
    · rw [String.toList_ofList, hcompact] at ht'
      obtain rfl := Option.some.inj ht'
      exact .inr ⟨t, ht, hreads⟩

theorem Json.Builds.raw {get : σ → String} {set : σ → String → σ} {name : String}
    {fields : List (RecordField σ)} {members : List (Option (String × List Char))} {old v : σ}
    {raw : String} {m : Option (String × List Char)} (h : rawMember? name raw = some m)
    (hraw : IsRawWithin n raw) (hold : set old "" = old)
    (hrest : Builds n fields members (set old (compactRaw raw)) v) :
    Builds n (Json.field name get set fillRaw :: fields) (m :: members) old v := by
  rcases rawMember?_eq_some_iff.mp h with ⟨rfl, rfl⟩ | ⟨t, ht, rfl⟩
  · rw [compactRaw_empty, hold] at hrest
    exact .absent hrest
  · obtain ⟨t', ht', hreads⟩ := hraw.resolve_left (ne_empty_of_compact ht)
    obtain rfl := Option.some.inj (ht.symm.trans ht')
    rw [compactRaw_of_compact ht] at hrest
    exact .written (f := Json.field name get set fillRaw) (prints_raw hreads _).field hrest

/-! ## Submissions -/

namespace Submission

/-- A submission whose numbers fit a word, and whose times are of the calendar. -/
structure Portable (s : Submission) : Prop where
  id : fitsWord s.id = true
  timeElapsed : fitsWord s.timeElapsed = true
  parts : ∀ p ∈ s.parts.getD [], p.Portable
  worker : ∀ p ∈ s.worker, p.Portable
  projectOwner : ∀ p ∈ s.projectOwner, p.Portable
  createdAt : s.createdAt.IsReal
  updatedAt : s.updatedAt.IsReal

/-- The submission with its raw fields in compact form. -/
def compacted (s : Submission) : Submission :=
  { s with
    instructions := compactRaw s.instructions
    labelingConfig := compactRaw s.labelingConfig
    taskData := compactRaw s.taskData
    data := compactRaw s.data }

/-- A submission whose raw fields are absent, or have compact forms of this height at most. -/
structure RawsWithin (n : Nat) (s : Submission) : Prop where
  instructions : IsRawWithin n s.instructions
  labelingConfig : IsRawWithin n s.labelingConfig
  taskData : IsRawWithin n s.taskData
  data : IsRawWithin n s.data

theorem rawsWithin_of_json {s : Submission} {t : List Char} (h : s.json? = some t) :
    s.RawsWithin maxHeight := by
  simp only [json?, bind, Option.bind_eq_some_iff, pure, Option.some.injEq] at h
  obtain ⟨_, h1, _, h2, _, h3, _, h4, -⟩ := h
  exact ⟨isRawWithin_of_rawMember h1, isRawWithin_of_rawMember h2, isRawWithin_of_rawMember h3,
    isRawWithin_of_rawMember h4⟩

theorem rawsWithin_of_compacted {s : Submission} {t : List Char} (h : s.json? = some t)
    (hraws : s.compacted.RawsWithin n) : s.RawsWithin n := by
  simp only [json?, bind, Option.bind_eq_some_iff, pure, Option.some.injEq] at h
  obtain ⟨_, h1, _, h2, _, h3, _, h4, -⟩ := h
  exact ⟨isRawWithin_of_compactRaw h1 hraws.instructions,
    isRawWithin_of_compactRaw h2 hraws.labelingConfig, isRawWithin_of_compactRaw h3 hraws.taskData,
    isRawWithin_of_compactRaw h4 hraws.data⟩

theorem rawsWithin_of_empty {s : Submission} (instructions : s.instructions = "")
    (labelingConfig : s.labelingConfig = "") (taskData : s.taskData = "") (data : s.data = "") :
    s.RawsWithin n :=
  ⟨.inl instructions, .inl labelingConfig, .inl taskData, .inl data⟩

/-- A submission is decoded from its JSON form, with its raw fields in compact form. -/
theorem prints {s : Submission} (hs : s.Portable) (hraws : s.RawsWithin n) (hlow : 2 ≤ n)
    (hhigh : n ≤ maxHeight) {t : List Char} (h : s.json? = some t) :
    Prints (n + 1) Submission.fill {} t s.compacted := by
  simp only [json?, bind, Option.bind_eq_some_iff, pure, Option.some.injEq] at h
  obtain ⟨_, h1, _, h2, _, h3, _, h4, _, h5, _, h6, rfl⟩ := h
  have hperson {p : Person} (hp : p.Portable) : Prints n Person.fill {} p.json p :=
    (Person.prints hp).mono (Nat.le_of_succ_le hlow)
  have hparts : Prints n (fillList {} Part.fill) none (listText Part.json s.parts) s.parts :=
    (prints_list (fun p hp => Part.prints (hs.parts p hp)) (by decide)).mono hlow
  refine Builds.prints (by decide) ?_ hhigh
  exact .field (prints_int hs.id _) <| .field (prints_string _ _) <| .field (prints_string _ _) <|
    .field (prints_string _ _) <| .field (prints_string _ _) <| .field (Status.prints _ _) <|
    .field (prints_string _ _) <| .field hparts <|
    .field (prints_int hs.timeElapsed _) <|
    .present rfl rfl (fun p hp => ⟨hperson (hs.worker p hp), rfl⟩) <|
    .present rfl rfl (fun p hp => ⟨hperson (hs.projectOwner p hp), rfl⟩) <|
    .field (prints_string _ _) <| .nonEmptyText rfl <| .raw h1 hraws.instructions rfl <|
    .raw h2 hraws.labelingConfig rfl <| .raw h3 hraws.taskData rfl <| .raw h4 hraws.data rfl <|
    .field (Timestamp.prints hs.createdAt h5 _) <| .field (Timestamp.prints hs.updatedAt h6 _) .nil

theorem json?_compacted {s : Submission} {t : List Char} (h : s.json? = some t) :
    s.compacted.json? = some t := by
  simp only [json?, bind, Option.bind_eq_some_iff, pure, Option.some.injEq] at h ⊢
  obtain ⟨m1, h1, m2, h2, m3, h3, m4, h4, c, h5, u, h6, ht⟩ := h
  exact ⟨m1, rawMember?_compactRaw h1, m2, rawMember?_compactRaw h2, m3, rawMember?_compactRaw h3,
    m4, rawMember?_compactRaw h4, c, h5, u, h6, ht⟩

/-- A submission whose raw fields are absent or hold one value of this height at most each. -/
structure RawsHold (n : Nat) (s : Submission) : Prop where
  instructions : IsRaw n s.instructions
  labelingConfig : IsRaw n s.labelingConfig
  taskData : IsRaw n s.taskData
  data : IsRaw n s.data

theorem RawsHold.within {s : Submission} (h : s.RawsHold n) (hn : n ≤ maxHeight) :
    s.RawsWithin n :=
  ⟨isRawWithin_of_isRaw h.instructions hn, isRawWithin_of_isRaw h.labelingConfig hn,
    isRawWithin_of_isRaw h.taskData hn, isRawWithin_of_isRaw h.data hn⟩

/-- A submission whose times have zones of less than a day. -/
def IsNear (s : Submission) : Prop := s.createdAt.IsNear ∧ s.updatedAt.IsNear

theorem exists_json {s : Submission} (hraws : s.RawsWithin n) (hnear : s.IsNear) :
    ∃ t, s.json? = some t := by
  obtain ⟨m1, h1⟩ := exists_rawMember "instructions" hraws.instructions
  obtain ⟨m2, h2⟩ := exists_rawMember "labelingConfig" hraws.labelingConfig
  obtain ⟨m3, h3⟩ := exists_rawMember "taskData" hraws.taskData
  obtain ⟨m4, h4⟩ := exists_rawMember "data" hraws.data
  obtain ⟨c, hc⟩ := (Timestamp.json?_isSome_iff _).mpr hnear.1
  obtain ⟨u, hu⟩ := (Timestamp.json?_isSome_iff _).mpr hnear.2
  simp only [json?, h1, h2, h3, h4, hc, hu, bind, Option.bind, pure]
  exact ⟨_, rfl⟩

theorem isNear_of_json {s : Submission} {t : List Char} (h : s.json? = some t) : s.IsNear := by
  simp only [json?, bind, Option.bind_eq_some_iff, pure, Option.some.injEq] at h
  obtain ⟨-, -, -, -, -, -, -, -, c, hc, u, hu, -⟩ := h
  exact ⟨(Timestamp.json?_isSome_iff _).mp ⟨c, hc⟩, (Timestamp.json?_isSome_iff _).mp ⟨u, hu⟩⟩

/-- A printed submission that can be decoded comes back in compact form, and its raw fields are
lower than the highest text. -/
theorem eq_of_decode {s shown : Submission} (hs : s.Portable) {t blanks : List Char}
    (h : s.json? = some t) (hblanks : Blanks blanks)
    (hdecode : decode? {} Submission.fill (t ++ blanks) = some shown) :
    shown = s.compacted :=
  (prints hs (rawsWithin_of_json h) (by decide) (Nat.le_refl _) h).eq_of_decode hblanks hdecode

theorem keeps : Keeps (n + 1) (fun s => Portable s ∧ RawsHold n s) Submission.fill := by
  refine keeps_record ?_
  simp only [fields, List.forall_mem_cons, List.not_mem_nil, false_implies, implies_true, and_true]
  refine ⟨?id, ?_, ?_, ?_, ?_, ?_, ?_, ?parts, ?timeElapsed, ?worker, ?projectOwner, ?_, ?_,
    ?instructions, ?labelingConfig, ?taskData, ?data, ?createdAt, ?updatedAt⟩
  case id =>
    exact keeps_int.field _ (fun _ h => h.1.id) fun _ _ h ha =>
      ⟨{ h.1 with id := ha }, { h.2 with }⟩
  case parts =>
    exact (Part.keeps.list Part.portable_blank).field _ (fun _ h => h.1.parts) fun _ _ h ha =>
      ⟨{ h.1 with parts := ha }, { h.2 with }⟩
  case timeElapsed =>
    exact keeps_int.field _ (fun _ h => h.1.timeElapsed) fun _ _ h ha =>
      ⟨{ h.1 with timeElapsed := ha }, { h.2 with }⟩
  case worker =>
    exact (Person.keeps.option Person.portable_blank).field _ (fun _ h => h.1.worker)
      fun _ _ h ha => ⟨{ h.1 with worker := ha }, { h.2 with }⟩
  case projectOwner =>
    exact (Person.keeps.option Person.portable_blank).field _ (fun _ h => h.1.projectOwner)
      fun _ _ h ha => ⟨{ h.1 with projectOwner := ha }, { h.2 with }⟩
  case instructions =>
    exact keeps_raw.field _ (fun _ h => h.2.instructions) fun _ _ h ha =>
      ⟨{ h.1 with }, { h.2 with instructions := ha }⟩
  case labelingConfig =>
    exact keeps_raw.field _ (fun _ h => h.2.labelingConfig) fun _ _ h ha =>
      ⟨{ h.1 with }, { h.2 with labelingConfig := ha }⟩
  case taskData =>
    exact keeps_raw.field _ (fun _ h => h.2.taskData) fun _ _ h ha =>
      ⟨{ h.1 with }, { h.2 with taskData := ha }⟩
  case data =>
    exact keeps_raw.field _ (fun _ h => h.2.data) fun _ _ h ha =>
      ⟨{ h.1 with }, { h.2 with data := ha }⟩
  case createdAt =>
    exact Timestamp.keeps.field _ (fun _ h => h.1.createdAt) fun _ _ h ha =>
      ⟨{ h.1 with createdAt := ha }, { h.2 with }⟩
  case updatedAt =>
    exact Timestamp.keeps.field _ (fun _ h => h.1.updatedAt) fun _ _ h ha =>
      ⟨{ h.1 with updatedAt := ha }, { h.2 with }⟩
  -- the other fields hold texts, of which nothing is required
  all_goals
    exact (keeps_trivial _).field _ (fun _ _ => trivial) fun _ _ h _ =>
      ⟨{ h.1 with }, { h.2 with }⟩

theorem portable_blank : Portable {} where
  id := rfl
  timeElapsed := rfl
  parts := by simp
  worker := by simp
  projectOwner := by simp
  createdAt := Timestamp.isReal_zero
  updatedAt := Timestamp.isReal_zero

theorem rawsHold_blank : RawsHold n {} := ⟨.inl rfl, .inl rfl, .inl rfl, .inl rfl⟩

/-- What any accepted text is decoded to. -/
theorem portable_of_decode {t : List Char} {s : Submission}
    (h : decode? {} Submission.fill t = some s) : s.Portable ∧ s.RawsHold (maxHeight - 1) :=
  keeps.decode ⟨portable_blank, rawsHold_blank⟩ h

end Submission

/-! ## Lists of submissions -/

theorem forall₂_of_mapM {f : α → Option β} {items : List α} {results : List β}
    (h : items.mapM f = some results) : List.Forall₂ (fun b a => f a = some b) results items := by
  induction items generalizing results with
  | nil =>
      obtain rfl := Option.some.inj h
      exact .nil
  | cons a items ih =>
      simp only [List.mapM_cons, bind, Option.bind_eq_some_iff, pure, Option.some.injEq] at h
      obtain ⟨b, hb, rest, hrest, rfl⟩ := h
      exact .cons hb (ih hrest)

theorem exists_mapM {f : α → Option β} {items : List α} (h : ∀ a ∈ items, ∃ b, f a = some b) :
    ∃ results, items.mapM f = some results := by
  induction items with
  | nil => exact ⟨[], rfl⟩
  | cons a items ih =>
      obtain ⟨⟨b, hb⟩, hrest⟩ := List.forall_mem_cons.mp h
      obtain ⟨results, hresults⟩ := ih hrest
      refine ⟨b :: results, ?_⟩
      rw [List.mapM_cons, hb, hresults]
      rfl

/-- A list of which single items may be missing. -/
theorem prints_optionItems {blank : α} {fill : Filler α} {f : α → Option (List Char)}
    {list : Option (List (Option α))} {t : List Char} (h : optionItems? f list = some t)
    (hitems : ∀ a, some a ∈ list.getD [] → ∀ u, f a = some u →
      Prints n fill blank u a ∧ isNullText u = false) (hn : n ≤ maxHeight) :
    Prints (n + 1) (fillList none (fillOption blank fill)) none t list := by
  cases list with
  | none =>
      obtain rfl := Option.some.inj h
      exact prints_noList none _ none
  | some items =>
      obtain ⟨texts, htexts, rfl⟩ := Option.map_eq_some_iff.mp h
      refine prints_items ?_ hn
      have hall := forall₂_of_mapM htexts
      clear h htexts
      induction hall with
      | nil => exact .nil
      | @cons u a texts items hu _ ih =>
          refine .cons ?_ (ih fun b hb => hitems b (List.mem_cons_of_mem _ hb))
          cases a with
          | none =>
              obtain rfl := Option.some.inj hu
              exact prints_none blank fill none
          | some a =>
              obtain ⟨hprints, hnull⟩ := hitems a List.mem_cons_self u hu
              exact prints_present hprints hnull

theorem exists_optionItems {f : α → Option (List Char)} {list : Option (List (Option α))}
    (h : ∀ o ∈ list.getD [], ∀ a ∈ o, ∃ u, f a = some u) : ∃ t, optionItems? f list = some t := by
  cases list with
  | none => exact ⟨_, rfl⟩
  | some items =>
      refine Option.isSome_iff_exists.mp ?_
      rw [optionItems?, Option.isSome_map]
      refine Option.isSome_iff_exists.mpr (exists_mapM fun o ho => ?_)
      cases o with
      | none => exact ⟨_, rfl⟩
      | some a => exact h _ ho a rfl

/-- Every item of a list that has a JSON form has one. -/
theorem exists_of_optionItems {f : α → Option (List Char)} {items : List (Option α)}
    {t : List Char} (h : optionItems? f (some items) = some t) :
    ∀ a, some a ∈ items → ∃ u, f a = some u := by
  obtain ⟨texts, htexts, -⟩ := Option.map_eq_some_iff.mp h
  have hall := forall₂_of_mapM htexts
  clear h htexts
  intro a ha
  induction hall with
  | nil => cases ha
  | @cons u o texts items hu _ ih =>
      rcases List.mem_cons.mp ha with rfl | hmem
      · exact ⟨u, hu⟩
      · exact ih hmem

namespace Summary

/-- A summary whose numbers fit a word, and whose time is of the calendar. -/
structure Portable (s : Summary) : Prop where
  id : fitsWord s.id = true
  worker : ∀ p ∈ s.worker, p.Portable
  createdAt : s.createdAt.IsReal

theorem prints {s : Summary} (hs : s.Portable) {t : List Char} (h : s.json? = some t) :
    Prints 2 Summary.fill {} t s ∧ isNullText t = false := by
  simp only [json?, bind, Option.bind_eq_some_iff, pure, Option.some.injEq] at h
  obtain ⟨_, h1, rfl⟩ := h
  refine ⟨Builds.prints (by decide) ?_ (by decide), rfl⟩
  exact .field (prints_int hs.id _) <| .field (prints_string _ _) <| .field (Status.prints _ _) <|
    .present rfl rfl (fun p hp => ⟨Person.prints (hs.worker p hp), rfl⟩) <|
    .field (Timestamp.prints hs.createdAt h1 _) .nil

theorem exists_json {s : Summary} (hnear : s.createdAt.IsNear) : ∃ t, s.json? = some t := by
  obtain ⟨c, hc⟩ := (Timestamp.json?_isSome_iff _).mpr hnear
  exact ⟨_, by simp only [json?, hc, bind, Option.bind, pure]; rfl⟩

theorem isNear_of_json {s : Summary} {t : List Char} (h : s.json? = some t) :
    s.createdAt.IsNear := by
  simp only [json?, bind, Option.bind_eq_some_iff, pure, Option.some.injEq] at h
  obtain ⟨c, hc, -⟩ := h
  exact (Timestamp.json?_isSome_iff _).mp ⟨c, hc⟩

theorem keeps : Keeps n Portable Summary.fill := by
  refine (keeps_record ?_).of_le (Nat.le_succ n)
  simp only [fields, List.forall_mem_cons, List.not_mem_nil, false_implies, implies_true, and_true]
  exact ⟨keeps_int.field _ (fun _ h => h.id) (fun _ _ h ha => { h with id := ha }),
    (keeps_trivial _).field _ (fun _ _ => trivial) (fun _ _ h _ => { h with }),
    (keeps_trivial _).field _ (fun _ _ => trivial) (fun _ _ h _ => { h with }),
    (Person.keeps.option Person.portable_blank).field _ (fun _ h => h.worker)
      (fun _ _ h ha => { h with worker := ha }),
    Timestamp.keeps.field _ (fun _ h => h.createdAt) (fun _ _ h ha => { h with createdAt := ha })⟩

theorem portable_blank : Portable {} := ⟨rfl, by simp, Timestamp.isReal_zero⟩

end Summary

namespace SummaryList

/-- A list whose numbers fit a word, and whose times are of the calendar. -/
structure Portable (l : SummaryList) : Prop where
  count : fitsWord l.count = true
  results : ∀ o ∈ l.results.getD [], ∀ s ∈ o, s.Portable

/-- A list whose times have zones of less than a day. -/
def IsNear (l : SummaryList) : Prop := ∀ o ∈ l.results.getD [], ∀ s ∈ o, s.createdAt.IsNear

theorem prints {l : SummaryList} (hl : l.Portable) {t : List Char} (h : l.json? = some t) :
    Prints 4 SummaryList.fill {} t l := by
  simp only [json?, bind, Option.bind_eq_some_iff, pure, Option.some.injEq] at h
  obtain ⟨_, h1, rfl⟩ := h
  refine Builds.prints (by decide) ?_ (by decide)
  exact .field (prints_int hl.count _) <| .field (prints_optionItems h1 (fun s hs _ hu =>
    Summary.prints (hl.results (some s) hs s rfl) hu) (by decide)) .nil

theorem exists_json {l : SummaryList} (hnear : l.IsNear) : ∃ t, l.json? = some t := by
  obtain ⟨r, hr⟩ : ∃ r, optionItems? Summary.json? l.results = some r :=
    exists_optionItems fun o ho s hs => Summary.exists_json (hnear o ho s hs)
  exact ⟨_, by simp only [json?, hr, bind, Option.bind, pure]; rfl⟩

theorem keeps : Keeps n Portable SummaryList.fill := by
  refine (keeps_record ?_).of_le (Nat.le_succ n)
  simp only [fields, List.forall_mem_cons, List.not_mem_nil, false_implies, implies_true, and_true]
  refine ⟨keeps_int.field _ (fun _ h => h.count) (fun _ _ h ha => { h with count := ha }), ?_⟩
  exact ((Summary.keeps.option Summary.portable_blank).list (by simp)).field _
    (fun _ h => h.results) (fun _ _ h ha => { h with results := ha })

theorem portable_of_decode {t : List Char} {l : SummaryList}
    (h : decode? {} SummaryList.fill t = some l) : l.Portable :=
  keeps.decode ⟨rfl, by simp⟩ h

end SummaryList

/-! ## Attachments -/

namespace Attachment

/-- An attachment whose number fits a word, and whose time is of the calendar. -/
structure Portable (a : Attachment) : Prop where
  submissionId : fitsWord a.submissionId = true
  createdAt : a.createdAt.IsReal

theorem prints {a : Attachment} (ha : a.Portable) {t : List Char} (h : a.json? = some t) :
    Prints 1 Attachment.fill {} t a ∧ isNullText t = false := by
  simp only [json?, bind, Option.bind_eq_some_iff, pure, Option.some.injEq] at h
  obtain ⟨_, h1, rfl⟩ := h
  refine ⟨Builds.prints (by decide) ?_ (Nat.zero_le _), rfl⟩
  exact .field (prints_string _ _) <| .field (prints_int ha.submissionId _) <|
    .field (prints_string _ _) <| .field (prints_string _ _) <| .field (prints_string _ _) <|
    .field (Timestamp.prints ha.createdAt h1 _) .nil

theorem exists_json {a : Attachment} (hnear : a.createdAt.IsNear) : ∃ t, a.json? = some t := by
  obtain ⟨c, hc⟩ := (Timestamp.json?_isSome_iff _).mpr hnear
  exact ⟨_, by simp only [json?, hc, bind, Option.bind, pure]; rfl⟩

theorem keeps : Keeps n Portable Attachment.fill := by
  have hlabel {get : Attachment → String} {set : Attachment → String → Attachment} (name : String)
      (hset : ∀ a v, Portable a → Portable (set a v)) :
      Keeps n Portable (field name get set fillString).fill :=
    (keeps_trivial _).field name (fun _ _ => trivial) fun a v h _ => hset a v h
  refine (keeps_record ?_).of_le (Nat.le_succ n)
  simp only [fields, List.forall_mem_cons, List.not_mem_nil, false_implies, implies_true, and_true]
  exact ⟨hlabel _ fun _ _ h => { h with },
    keeps_int.field _ (fun _ h => h.submissionId) (fun _ _ h ha => { h with submissionId := ha }),
    hlabel _ fun _ _ h => { h with }, hlabel _ fun _ _ h => { h with },
    hlabel _ fun _ _ h => { h with },
    Timestamp.keeps.field _ (fun _ h => h.createdAt) (fun _ _ h ha => { h with createdAt := ha })⟩

/-- A list of attachments whose numbers fit a word, and whose times are of the calendar. -/
def ListPortable (items : Option (List (Option Attachment))) : Prop :=
  ∀ o ∈ items.getD [], ∀ a ∈ o, a.Portable

/-- A list of attachments whose times have zones of less than a day. -/
def ListNear (items : Option (List (Option Attachment))) : Prop :=
  ∀ o ∈ items.getD [], ∀ a ∈ o, a.createdAt.IsNear

theorem prints_listJson {items : Option (List (Option Attachment))} (h : ListPortable items)
    {t : List Char} (ht : listJson? items = some t) : Prints 2 fillAll none t items :=
  prints_optionItems ht (fun a ha _ hu => prints (h (some a) ha a rfl) hu) (by decide)

theorem exists_listJson {items : Option (List (Option Attachment))} (h : ListNear items) :
    ∃ t, listJson? items = some t :=
  exists_optionItems fun o ho a ha => exists_json (h o ho a ha)

theorem listPortable_of_decode {t : List Char} {items : Option (List (Option Attachment))}
    (h : decode? none fillAll t = some items) : ListPortable items :=
  ((keeps.option ⟨rfl, Timestamp.isReal_zero⟩).list (by simp)).decode (by simp) h

end Attachment

/-! ## Updates, options and refusals -/

namespace PartVerdict

/-- A part verdict whose numbers fit a word. -/
structure Portable (p : PartVerdict) : Prop where
  submission : fitsWord p.submission = true
  index : fitsWord p.index = true

theorem prints {p : PartVerdict} (hp : p.Portable) : Prints 1 PartVerdict.fill {} p.json p := by
  refine Builds.prints (by decide) ?_ (Nat.zero_le _)
  exact .field (prints_int hp.submission _) <| .field (prints_int hp.index _) <|
    .field (Status.prints _ _) <| .field (prints_string _ _) .nil

theorem keeps : Keeps n Portable PartVerdict.fill := by
  refine (keeps_record ?_).of_le (Nat.le_succ n)
  simp only [fields, List.forall_mem_cons, List.not_mem_nil, false_implies, implies_true, and_true]
  exact ⟨keeps_int.field _ (fun _ h => h.submission) (fun _ _ h ha => { h with submission := ha }),
    keeps_int.field _ (fun _ h => h.index) (fun _ _ h ha => { h with index := ha }),
    (keeps_trivial _).field _ (fun _ _ => trivial) (fun _ _ h _ => { h with }),
    (keeps_trivial _).field _ (fun _ _ => trivial) (fun _ _ h _ => { h with })⟩

end PartVerdict

namespace Verdict

/-- An update whose numbers fit a word. -/
structure Portable (v : Verdict) : Prop where
  timeElapsed : fitsWord v.timeElapsed = true
  parts : ∀ p ∈ v.parts.getD [], p.Portable

/-- The update without an empty list of part verdicts. -/
def trimmed (v : Verdict) : Verdict :=
  { v with parts := if v.hasParts then v.parts else none }

theorem trimmed_of_not_hasParts {v : Verdict} (h : v.hasParts = false) :
    v.trimmed = { v with parts := none } := by
  simp [trimmed, h]

theorem trimmed_of_hasParts {v : Verdict} (h : v.hasParts = true) : v.trimmed = v := by
  simp [trimmed, h]

/-- An update is decoded from its JSON form, without an empty list of part verdicts. -/
theorem prints {v : Verdict} (hv : v.Portable) : Prints 3 Verdict.fill {} v.json v.trimmed := by
  refine Builds.prints (by decide) ?_ (by decide)
  refine .field (prints_int hv.timeElapsed _) <|
    .nonEmpty (Status.prints v.status _) (fun hempty => ?_) <| .nonEmptyText rfl ?_
  · rw [show v.status = .none from congrArg Status.mk hempty]
  · cases hparts : v.hasParts with
    | false =>
        rw [trimmed_of_not_hasParts hparts]
        exact .absent .nil
    | true =>
        obtain ⟨parts, hsome⟩ : ∃ parts, v.parts = some parts := by
          cases h : v.parts with
          | none => simp [hasParts, partList, h] at hparts
          | some parts => exact ⟨parts, rfl⟩
        have hportable := hv.parts
        rw [hsome] at hportable
        have hlist := prints_list (fun p hp => PartVerdict.prints (hportable p hp)) (by decide)
        rw [trimmed_of_hasParts hparts, partList, hsome]
        exact .field hlist (hsome ▸ .nil)

theorem json_trimmed (v : Verdict) : v.trimmed.json = v.json := by
  cases h : v.hasParts with
  | true => rw [trimmed_of_hasParts h]
  | false =>
      rw [trimmed_of_not_hasParts h, json, json, h]
      rfl

theorem keeps : Keeps n Portable Verdict.fill := by
  refine (keeps_record ?_).of_le (Nat.le_succ n)
  simp only [fields, List.forall_mem_cons, List.not_mem_nil, false_implies, implies_true, and_true]
  exact ⟨keeps_int.field _ (fun _ h => h.timeElapsed)
      (fun _ _ h ha => { h with timeElapsed := ha }),
    (keeps_trivial _).field _ (fun _ _ => trivial) (fun _ _ h _ => { h with }),
    (keeps_trivial _).field _ (fun _ _ => trivial) (fun _ _ h _ => { h with }),
    (PartVerdict.keeps.list ⟨rfl, rfl⟩).field _ (fun _ h => h.parts)
      (fun _ _ h ha => { h with parts := ha })⟩

theorem portable_of_decode {t : List Char} {v : Verdict}
    (h : decode? {} Verdict.fill t = some v) : v.Portable :=
  keeps.decode ⟨rfl, by simp⟩ h

theorem portable_of_decodeFirst {t : List Char} {v : Verdict}
    (h : decodeFirst? {} Verdict.fill t = some v) : v.Portable :=
  keeps.decodeFirst ⟨rfl, by simp⟩ h

end Verdict

theorem Notice.prints (m : Notice) : Prints 1 Notice.fill {} m.json m :=
  Builds.prints (by decide) (.field (prints_string _ _) <| .field (prints_string _ _) .nil)
    (Nat.zero_le _)

theorem Refusal.prints (r : Refusal) : Prints 3 Refusal.fill {} r.json r :=
  Builds.prints (by decide) (.field (prints_list (fun m _ => Notice.prints m) (by decide)) .nil)
    (by decide)

theorem StatusOption.prints (o : StatusOption) : Prints 1 StatusOption.fill {} o.json o :=
  Builds.prints (by decide) (.field (Status.prints _ _) .nil) (Nat.zero_le _)

theorem StatusOptionList.prints (l : StatusOptionList) :
    Prints 3 StatusOptionList.fill {} l.json l :=
  Builds.prints (by decide)
    (.field (prints_list (fun o _ => StatusOption.prints o) (by decide)) .nil) (by decide)

end ReviewQueue
