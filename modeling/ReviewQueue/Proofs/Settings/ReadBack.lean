import ReviewQueue.Proofs.Settings.Layout

/-! # The configuration file read back

A configuration file that was written is read as the same settings: what is not commented out has
the value that it had, and what is commented out is not set.

* `Assignable`, `IsAssigned` — what the settings may hold
* `ofFile_render` — the table that is read from the file
* `inFile?_render` — it holds the settings that are not commented out, and no others
* `head_mem_fileLines` — the head of a section, with or without the mark of a comment
* `written_file_read_back` — the file as a whole
-/

namespace ReviewQueue.Settings

open Setting (group sections)

/-! ## What may be assigned -/

/-- The settings that hold lists of statuses. -/
def statusLists : List String := ["review.valid_statuses", "review.read_only_statuses"]

/-- A value that a setting may be assigned: the port is a number, a list of statuses holds known
ones, and everything else is any text. -/
inductive Assignable : String → SettingValue → Prop
  | port {n : Int} (h : fitsWord n = true) : Assignable "serve.port" (.int n)
  | statuses {key : String} (hkey : key ∈ statusLists) {items : List Status}
      (h : ∀ st ∈ items, st ∈ Status.known) : Assignable key (.texts (items.map (·.label)))
  | text {key : String} (hkey : key ≠ "serve.port" ∧ key ∉ statusLists) (t : String) :
      Assignable key (.text t)

theorem Assignable.readsBack {key : String} {v : SettingValue} (h : Assignable key v) :
    v.ReadsBack := by
  cases h with
  | port h => exact SettingValue.readsBack_int h
  | statuses _ h => exact SettingValue.readsBack_statuses h
  | text _ t => exact SettingValue.readsBack_text t

/-- Every setting of the catalog has a value that it may be assigned. -/
def IsAssigned (s : Settings) : Prop :=
  ∀ st ∈ Setting.catalog, Assignable st.key (s.get st.key)

theorem IsAssigned.readable {s : Settings} (h : s.IsAssigned) : s.Readable :=
  fun st hst => (h st hst).readsBack

/-- Settings that are given directly: texts, the port, and the lists of statuses. -/
def assign (texts : String → String) (port : Int) (statuses : String → List Status) : Settings where
  given := Setting.catalog.map fun st =>
    (st.key,
      if st.key = "serve.port" then .int port
      else if st.key ∈ statusLists then .texts ((statuses st.key).map (·.label))
      else .text (texts st.key))

/-- Any texts, any port that fits a word and any known statuses may be assigned. -/
theorem isAssigned_assign (texts : String → String) {port : Int} (hport : fitsWord port = true)
    {statuses : String → List Status} (hstatuses : ∀ key, ∀ st ∈ statuses key, st ∈ Status.known) :
    (assign texts port statuses).IsAssigned := by
  intro st hst
  have hkeys : ((assign texts port statuses).given.map (·.1)).Nodup := by
    have hnodup : (Setting.catalog.map (·.key)).Nodup := by decide +kernel
    rw [assign, List.map_map]
    exact hnodup
  have hlookup := lookup_of_mem hkeys (List.mem_map.mpr ⟨st, hst, rfl⟩)
  unfold get
  rw [hlookup]
  by_cases hkey : st.key = "serve.port"
  · rw [if_pos hkey, hkey]
    exact .port hport
  · by_cases hlist : st.key ∈ statusLists
    · rw [if_neg hkey, if_pos hlist]
      exact .statuses hlist (hstatuses st.key)
    · rw [if_neg hkey, if_neg hlist]
      exact .text ⟨hkey, hlist⟩ (texts st.key)

variable {s : Settings}

theorem mem_group {st : Setting} (h : st ∈ Setting.catalog) : st ∈ group st.sect :=
  List.mem_filter.mpr ⟨h, beq_self_eq_true _⟩

/-! ## The parts of the file -/

/-- What the file has entries for: the settings outside of sections, and the sections. -/
def parts : List (Setting ⊕ String) := (group "").map .inl ++ sections.map .inr

/-- The name of a part. -/
def partName : Setting ⊕ String → String := Sum.elim Setting.leaf id

/-- The entry of a part. -/
def shownPart? (s : Settings) : Setting ⊕ String → Option FileEntry :=
  Sum.elim s.shown? s.shownSection?

theorem fileEntries_eq : s.fileEntries = parts.filterMap s.shownPart? := by
  rw [parts, List.filterMap_append, List.filterMap_map, List.filterMap_map]
  rfl

theorem name_of_shown? (st : Setting) (e : FileEntry) (h : s.shown? st = some e) :
    e.name = st.leaf := by
  unfold shown? at h
  split at h
  · cases h
  · rw [← Option.some.inj h]

theorem name_of_shownPart? (part : Setting ⊕ String) (e : FileEntry)
    (h : s.shownPart? part = some e) : e.name = partName part := by
  cases part with
  | inl st => exact name_of_shown? st e h
  | inr sect =>
      change s.shownSection? sect = some e at h
      unfold shownSection? at h
      split at h
      · cases h
      · rw [← Option.some.inj h]
        rfl

theorem nodup_parts : (parts.map partName).Nodup := by
  have hnames : parts.map partName = (group "").map Setting.leaf ++ sections := by
    rw [parts, List.map_append, List.map_map, List.map_map]
    exact congrArg _ (List.map_id sections)
  rw [hnames]
  exact Setting.nodup_names

theorem lookup_part {part : Setting ⊕ String} (h : part ∈ parts) :
    (FileEntry.table s.fileEntries).lookup (partName part) =
      (s.shownPart? part).map (·.value) := by
  rw [fileEntries_eq]
  exact FileEntry.lookup_filterMap name_of_shownPart? nodup_parts h

theorem lookup_leaf {sect : String} (hsect : sect ∈ "" :: sections) {st : Setting}
    (hst : st ∈ group sect) :
    (FileEntry.table (s.entries sect)).lookup st.leaf = (s.shown? st).map (·.value) :=
  FileEntry.lookup_filterMap name_of_shown? (Setting.nodup_leaves sect hsect) hst

/-! ## Reading the file -/

theorem shown?_reads (h : s.Readable) {st : Setting} (hst : st ∈ Setting.catalog) {e : FileEntry}
    (he : s.shown? st = some e) (depth : Nat) : e.Reads (depth + 2) := by
  unfold shown? at he
  split at he
  · cases he
  · rw [← Option.some.inj he]
    exact ⟨Setting.isName_leaf st hst, (h st hst).value depth⟩

theorem entries_read (h : s.Readable) (sect : String) (depth : Nat) :
    ∀ e ∈ s.entries sect, e.Reads (depth + 2) := by
  intro e he
  obtain ⟨st, hst, hentry⟩ := List.mem_filterMap.mp he
  exact shown?_reads h (List.mem_filter.mp hst).1 hentry depth

theorem fileEntries_read (h : s.Readable) (depth : Nat) :
    ∀ e ∈ s.fileEntries, e.Reads (depth + 3) := by
  intro e he
  rcases List.mem_append.mp he with he | he
  · exact entries_read h "" (depth + 1) e he
  · obtain ⟨sect, hsect, hentry⟩ := List.mem_filterMap.mp he
    have hnames : ((s.entries sect).map (·.name)).Nodup :=
      FileEntry.nodup_filterMap name_of_shown?
        (Setting.nodup_leaves sect (List.mem_cons_of_mem _ hsect))
    unfold shownSection? at hentry
    split at hentry
    · cases hentry
    · rw [← Option.some.inj hentry]
      exact ⟨Setting.isName_sect sect hsect,
        FileEntry.ofYaml_mapping hnames (entries_read h sect depth)⟩

theorem settingLine_shown {st : Setting} (hsample : st.sample = "")
    (hshown : st.commented = false) : (s.settingLine st).2 = false := by
  unfold settingLine
  dsimp only
  rw [hsample, hshown]
  split
  · rename_i h
    simp at h
  · rfl

/-- Some setting is never commented out, and nor is its section. -/
theorem fileEntries_ne_nil : s.fileEntries ≠ [] := by
  -- a setting that has no sample, and is not written as one
  have hsome : ∃ st ∈ Setting.catalog, st.sect ≠ "" ∧ st.sample = "" ∧ st.commented = false := by
    decide
  obtain ⟨st, hcatalog, hne, hsample, hshown⟩ := hsome
  have hsect := Setting.sect_mem_sections hcatalog hne
  have hst := mem_group hcatalog
  have hlive : s.sectionCommented st.sect ≠ true := fun h => by
    have hst' := List.all_eq_true.mp h st hst
    rw [settingLine_shown hsample hshown] at hst'
    cases hst'
  have hentry : ∃ e, s.shownSection? st.sect = some e := ⟨_, if_neg hlive⟩
  obtain ⟨e, he⟩ := hentry
  have hmem : e ∈ s.fileEntries :=
    List.mem_append_right _ (List.mem_filterMap.mpr ⟨st.sect, hsect, he⟩)
  exact List.ne_nil_of_mem hmem

/-- The file that is written is a mapping. -/
theorem read_render (h : s.Readable) :
    Yaml.read s.render = .ok (.mapping (s.fileEntries.map FileEntry.pair)) :=
  Yaml.read_of_lays (fileLines_lay h) (by simpa using fileEntries_ne_nil) s.toList_render

theorem ofFile_render (h : s.Readable) :
    SettingValue.ofFile s.render = FileEntry.table s.fileEntries := by
  have hlength : 3 ≤ s.render.length := by
    have hheading : "# rq configuration".toList.length = 18 := rfl
    rw [← String.length_toList, toList_render, fileLines, List.cons_append, List.map_cons,
      Yaml.joined_cons, List.length_append]
    omega
  obtain ⟨depth, hdepth⟩ : ∃ depth, s.render.length + 1 = depth + 4 :=
    ⟨s.render.length - 3, by omega⟩
  have hnames : (s.fileEntries.map (·.name)).Nodup := by
    rw [fileEntries_eq]
    exact FileEntry.nodup_filterMap name_of_shownPart? nodup_parts
  rw [SettingValue.ofFile, read_render h, hdepth]
  have hread := FileEntry.ofYaml_mapping hnames (fileEntries_read h depth)
  simp only [bind, Except.bind, hread]

theorem value_of_shown? (h : s.Readable) {st : Setting} (hst : st ∈ Setting.catalog) :
    present? ((s.shown? st).map (·.value)) =
      if (s.settingLine st).2 then none else some (s.get st.key) := by
  unfold shown?
  split
  · rfl
  · exact (h st hst).present

/-- No part has a name with a point in it. -/
theorem lookup_dotted (h : s.Readable) {st : Setting} (hst : st ∈ Setting.catalog)
    (hsect : st.sect ≠ "") : (FileEntry.table s.fileEntries).lookup st.key = none := by
  have hdotted : ∀ st ∈ Setting.catalog, st.sect ≠ "" → ¬ Yaml.IsWord st.key.toList := by
    decide +kernel
  refine FileEntry.lookup_table_eq_none fun e he heq => hdotted st hst hsect ?_
  rw [← heq]
  exact (fileEntries_read h 0 e he).name.word

theorem lookup_sect {sect : String} (h : sect ∈ sections) :
    (FileEntry.table s.fileEntries).lookup sect =
      if s.sectionCommented sect then none
      else some (.table (FileEntry.table (s.entries sect))) := by
  have hpart : Sum.inr sect ∈ parts :=
    List.mem_append_right _ (List.mem_map.mpr ⟨sect, h, rfl⟩)
  have hlookup := lookup_part (s := s) hpart
  change _ = (s.shownSection? sect).map (·.value) at hlookup
  unfold shownSection? at hlookup
  split at hlookup
  · rename_i hcommented
    rw [if_pos hcommented]
    exact hlookup
  · rename_i hlive
    rw [if_neg hlive]
    exact hlookup

theorem inFile?_eq (file : List (String × SettingValue)) (st : Setting) :
    inFile? file st.key =
      match present? (file.lookup st.key), file.lookup st.sect with
      | some v, _ => some v
      | none, some (.table entries) =>
        if st.sect = "" then none else present? (entries.lookup st.leaf)
      | none, _ => none := rfl

/-- The file holds the settings that are not commented out, and no others. -/
theorem inFile?_render (h : s.Readable) {st : Setting} (hst : st ∈ Setting.catalog) :
    inFile? (SettingValue.ofFile s.render) st.key =
      if (s.settingLine st).2 then none else some (s.get st.key) := by
  have hgroup := mem_group hst
  have hvalue := value_of_shown? h hst
  rw [ofFile_render h, inFile?_eq]
  by_cases hsect : st.sect = ""
  · -- outside of sections a setting is found under its whole name, and in no table
    have hkeys : ∀ st ∈ Setting.catalog, st.sect = "" → st.leaf = st.key := by decide +kernel
    have hpart : Sum.inl st ∈ parts :=
      List.mem_append_left _ (List.mem_map.mpr ⟨st, hsect ▸ hgroup, rfl⟩)
    have hlookup : (FileEntry.table s.fileEntries).lookup st.key =
        (s.shown? st).map (·.value) := by
      rw [← hkeys st hst hsect]
      exact lookup_part hpart
    rw [hlookup, hvalue]
    by_cases hcommented : (s.settingLine st).2 = true
    · rw [if_pos hcommented]
      cases (FileEntry.table s.fileEntries).lookup st.sect with
      | none => rfl
      | some v =>
          cases v with
          | table entries => exact if_pos hsect
          | _ => rfl
    · rw [if_neg hcommented]
  · -- in a section it is found in the table of the section, since no name has a point
    have hmem := Setting.sect_mem_sections hst hsect
    rw [lookup_dotted h hst hsect, lookup_sect hmem]
    by_cases hcommented : s.sectionCommented st.sect = true
    · -- a section that is commented out has no setting that is not
      have hst' := List.all_eq_true.mp hcommented st hgroup
      rw [if_pos hcommented, if_pos hst']
      rfl
    · rw [if_neg hcommented, ← hvalue, ← lookup_leaf (List.mem_cons_of_mem _ hmem) hgroup]
      exact if_neg hsect

/-- A value that is looked for in a file alone. -/
theorem get_file (file : List (String × SettingValue)) (key : String) :
    ({ file } : Settings).get key = (inFile? file key).getD .null := by
  have hgiven : present? (([] : List (String × SettingValue)).lookup key) = none := rfl
  have henv (name : String) : envValue? { file } name = none := rfl
  have hhides : envHidesKey { file } key = false := by
    unfold envHidesKey
    dsimp only
    rw [henv]
    exact Bool.and_false _
  unfold get
  rw [hgiven, henv, hhides]
  cases inFile? file key with
  | some v => rfl
  | none =>
      show (if hidesKey file key then SettingValue.null else _) = _
      split
      · rfl
      · rfl

/-! ## The heads of sections -/

/-- A line without the mark of a comment at its start. -/
def unmarked : List Char → List Char
  | '#' :: ' ' :: text => text
  | line => line

theorem unmarked_word {word : List Char} (hword : Yaml.IsWord word) (rest : List Char) :
    unmarked (word ++ rest) = word ++ rest := by
  obtain ⟨c, w, rfl⟩ := List.exists_cons_of_ne_nil hword.1
  have hc := hword.2 c List.mem_cons_self
  unfold unmarked
  split
  · rename_i heq
    obtain ⟨rfl, -⟩ := List.cons.inj heq
    cases hc
  · rfl

/-- A line of a setting is empty, or it has a blank in it besides that of its mark. -/
theorem blank_of_mem_settingBlock {st : Setting} (hst : st ∈ Setting.catalog) {line : String}
    (h : line ∈ s.settingBlock st) : line = "" ∨ ' ' ∈ unmarked line.toList := by
  have hindented (text : String) : ' ' ∈ unmarked ("  " ++ text).toList := by
    rw [String.toList_append]
    exact List.mem_cons_self
  have hhelp : ∀ st ∈ Setting.catalog, ' ' ∈ st.help.toList := by decide +kernel
  have hleaf := (Setting.isName_leaf st hst).word
  have htext : ∃ text, (s.settingLine st).1.toList = st.leaf.toList ++ ':' :: ' ' :: text := by
    rcases s.settingLine_text st with htext | htext
    · exact ⟨st.sample.toList, by rw [htext]; simp⟩
    · exact ⟨(s.get st.key).written.toList, by rw [htext]; simp⟩
  obtain ⟨text, htext⟩ := htext
  by_cases hsect : st.sect = ""
  · simp only [settingBlock, if_pos hsect, List.mem_cons, List.not_mem_nil, or_false] at h
    rcases h with rfl | rfl | rfl
    · exact .inl rfl
    · refine .inr ?_
      simpa [unmarked] using hhelp st hst
    · refine .inr ?_
      split
      · simp [unmarked, htext]
      · simp [htext, unmarked_word hleaf]
  · simp only [settingBlock, if_neg hsect, List.mem_cons, List.not_mem_nil, or_false] at h
    rcases h with rfl | rfl | rfl
    · exact .inl rfl
    · rw [String.append_assoc]
      exact .inr (hindented _)
    · rw [String.append_assoc]
      exact .inr (hindented _)

/-- The lines of the file are those of its heading, of its settings, and the heads of sections. -/
theorem head_of_mem_fileLines {line : String} (h : line ∈ s.fileLines) :
    line = "" ∨ ' ' ∈ unmarked line.toList ∨ ∃ sect ∈ sections,
      line = (if s.sectionCommented sect then "# " else "") ++ sect ++ ":" := by
  -- a block of settings has no head in it
  have hblock {sect : String} (h : line ∈ (group sect).flatMap s.settingBlock) :
      line = "" ∨ ' ' ∈ unmarked line.toList := by
    obtain ⟨st, hst, hline⟩ := List.mem_flatMap.mp h
    exact blank_of_mem_settingBlock (List.mem_filter.mp hst).1 hline
  rw [fileLines, settingLines_catalog] at h
  rcases List.mem_append.mp h with h | h
  · have hheading : ∀ line ∈ ["# rq configuration",
        "# See: rq config show (for effective values and sources)"],
        ' ' ∈ unmarked line.toList := by decide +kernel
    exact .inr (.inl (hheading line h))
  · rcases List.mem_append.mp h with h | h
    · exact (hblock h).imp_right .inl
    · obtain ⟨sect, hsect, h⟩ := List.mem_flatMap.mp h
      rcases List.mem_append.mp h with h | h
      · simp only [sectionHead, if_neg (Setting.ne_empty_of_mem_sections hsect), List.mem_cons,
          List.not_mem_nil, or_false] at h
        exact h.imp_right fun h => .inr ⟨sect, hsect, h⟩
      · exact (hblock h).imp_right .inl

/-- The head of a section stands in the file. -/
theorem sectionHead_mem_fileLines {sect : String} (hsect : sect ∈ sections) :
    (if s.sectionCommented sect then "# " else "") ++ sect ++ ":" ∈ s.fileLines := by
  have hhead : (if s.sectionCommented sect then "# " else "") ++ sect ++ ":" ∈
      s.sectionLines sect := by
    refine List.mem_append_left _ ?_
    rw [sectionHead, if_neg (Setting.ne_empty_of_mem_sections hsect)]
    exact List.mem_cons_of_mem _ List.mem_cons_self
  rw [fileLines, settingLines_catalog]
  exact List.mem_append_right _
    (List.mem_append_right _ (List.mem_flatMap.mpr ⟨sect, hsect, hhead⟩))

theorem unmarked_head {sect mark : String} (hsect : sect ∈ sections)
    (hmark : mark = "# " ∨ mark = "") :
    unmarked (mark ++ sect ++ ":").toList = sect.toList ++ [':'] := by
  rcases hmark with rfl | rfl
  · simp [unmarked]
  · simpa using unmarked_word (Setting.isName_sect sect hsect).word [':']

/-- The head of a section stands in the file with the mark of a comment when all of the section is
commented out, and without it otherwise. -/
theorem head_mem_fileLines {sect mark : String} (hsect : sect ∈ sections)
    (hmark : mark = "# " ∨ mark = "") :
    mark ++ sect ++ ":" ∈ s.fileLines ↔
      mark = if s.sectionCommented sect then "# " else "" := by
  have hword := (Setting.isName_sect sect hsect).word
  constructor
  · intro h
    rcases head_of_mem_fileLines h with hempty | hblank | ⟨other, hother, heq⟩
    · -- a head is not empty, and has no blank but that of its mark
      have hlines := congrArg String.toList hempty
      simp at hlines
    · rw [unmarked_head hsect hmark] at hblank
      rcases List.mem_append.mp hblank with hblank | hblank
      · cases hword.2 ' ' hblank
      · cases List.mem_singleton.mp hblank
    · have hmark' : (if s.sectionCommented other then "# " else "") = "# " ∨
          (if s.sectionCommented other then "# " else "") = "" := by
        split
        · exact .inl rfl
        · exact .inr rfl
      -- it is the head of a section, and of this one, because their words are equal
      have hsame := unmarked_head hsect hmark
      rw [heq, unmarked_head hother hmark'] at hsame
      obtain rfl : other = sect := String.toList_inj.mp (List.append_cancel_right hsame)
      have hlines := congrArg String.toList heq
      simp only [String.toList_append] at hlines
      exact String.toList_inj.mp (List.append_cancel_right (List.append_cancel_right hlines))
  · rintro rfl
    exact sectionHead_mem_fileLines hsect

/-- The lines of the text that is written. -/
theorem splitOn_render (h : s.Readable) :
    s.render.toList.splitOn '\n' = s.fileLines.map String.toList ++ [[]] := by
  rw [toList_render]
  -- no line has a break in it, so that the text is cut where lines end
  refine Yaml.splitOn_joined fun line hline hbreak => ?_
  have hprintable := ((fileLines_lay h).isLine line hline).printable '\n' hbreak
  cases hprintable

theorem mem_splitOn_render (h : s.Readable) {line : String} (hne : line ≠ "") :
    line.toList ∈ s.render.toList.splitOn '\n' ↔ line ∈ s.fileLines := by
  rw [splitOn_render h, List.mem_append, List.mem_singleton, List.mem_map]
  constructor
  · rintro (⟨other, hother, heq⟩ | hnil)
    · exact String.toList_inj.mp heq ▸ hother
    · exact absurd (String.toList_inj.mp hnil) hne
  · exact fun hline => .inl ⟨line, hline, rfl⟩

/-- The line of a setting in the file. -/
def writtenLine (s : Settings) (st : Setting) : String :=
  (if st.sect = "" then "" else "  ") ++ (if (s.settingLine st).2 then "# " else "") ++
    (s.settingLine st).1

theorem writtenLine_mem_fileLines {st : Setting} (hst : st ∈ Setting.catalog) :
    s.writtenLine st ∈ s.fileLines := by
  have hblock : s.writtenLine st ∈ (group st.sect).flatMap s.settingBlock :=
    List.mem_flatMap.mpr ⟨st, mem_group hst, by simp [settingBlock, writtenLine]⟩
  rw [fileLines, settingLines_catalog]
  refine List.mem_append_right _ ?_
  by_cases hsect : st.sect = ""
  · exact List.mem_append_left _ (hsect ▸ hblock)
  · exact List.mem_append_right _ (List.mem_flatMap.mpr
      ⟨st.sect, Setting.sect_mem_sections hst hsect, List.mem_append_right _ hblock⟩)

theorem sectionCommented_iff (s : Settings) (sect : String) :
    s.sectionCommented sect = true ↔
      ∀ st ∈ Setting.catalog, st.sect = sect → (s.settingLine st).2 = true := by
  have hall : s.sectionCommented sect = (group sect).all fun st => (s.settingLine st).2 := rfl
  rw [hall, List.all_eq_true]
  constructor
  · exact fun h st hst hsect => h st (hsect ▸ mem_group hst)
  · exact fun h st hst => h st (List.mem_filter.mp hst).1 (sect_of_mem_group hst)

/-- A written file is a document of settings. Read on its own, it gives every setting that it shows
uncommented the value that was written, and sets no other; the head of a section is commented out
exactly when all its settings are. -/
theorem written_file_read_back (s : Settings) (h : s.IsAssigned) :
    (∃ entries, Yaml.read s.render = .ok (.mapping entries)) ∧
    (∀ st ∈ Setting.catalog,
      (s.writtenLine st).toList ∈ s.render.toList.splitOn '\n' ∧
      inFile? (SettingValue.ofFile s.render) st.key =
        (if (s.settingLine st).2 then none else some (s.get st.key)) ∧
      ({ file := SettingValue.ofFile s.render } : Settings).get st.key =
        if (s.settingLine st).2 then .null else s.get st.key) ∧
    ∀ sect ∈ Setting.sections,
      (("# " ++ sect ++ ":").toList ∈ s.render.toList.splitOn '\n' ↔
        ∀ st ∈ Setting.catalog, st.sect = sect → (s.settingLine st).2 = true) ∧
      ((sect ++ ":").toList ∈ s.render.toList.splitOn '\n' ↔
        ¬ ∀ st ∈ Setting.catalog, st.sect = sect → (s.settingLine st).2 = true) := by
  have hread := h.readable
  refine ⟨⟨_, read_render hread⟩, fun st hst => ⟨?_, inFile?_render hread hst, ?_⟩,
    fun sect hsect => ⟨?_, ?_⟩⟩
  · rw [splitOn_render hread]
    exact List.mem_append_left _ (List.mem_map_of_mem (writtenLine_mem_fileLines hst))
  · rw [get_file, inFile?_render hread hst]
    split
    · rfl
    · rfl
  · rw [mem_splitOn_render hread (by simp), head_mem_fileLines hsect (.inl rfl),
      ← sectionCommented_iff]
    split
    · exact iff_of_true rfl ‹_›
    · exact iff_of_false (by decide) ‹_›
  · have hhead := head_mem_fileLines (s := s) hsect (.inr (rfl : "" = ""))
    rw [String.empty_append] at hhead
    rw [mem_splitOn_render hread (by simp), hhead, ← sectionCommented_iff]
    split
    · exact iff_of_false (by decide) (not_not_intro ‹_›)
    · exact iff_of_true rfl ‹_›

/-- Settings with every kind of value, whose texts hold breaks, quotes and a separator of lines. -/
def sampleSettings : Settings :=
  assign (fun _ => "say \"hi\",\n\u2028then # \\ stop\t\u0007") (-1) fun key =>
    if key = "review.valid_statuses" then [Status.rejected, Status.pendingReview] else []

/-- The texts and the list come back; the list that is empty stays a comment. -/
theorem sample_file_read_back :
    sampleSettings.IsAssigned ∧
      inFile? (SettingValue.ofFile sampleSettings.render) "anthropic.model" =
        some (.text "say \"hi\",\n\u2028then # \\ stop\t\u0007") ∧
      inFile? (SettingValue.ofFile sampleSettings.render) "review.read_only_statuses" = none := by
  have hassigned : sampleSettings.IsAssigned := by
    refine isAssigned_assign _ (by decide) fun key st hst => ?_
    split at hst
    · revert st
      decide
    · cases hst
  have hvalues := (written_file_read_back sampleSettings hassigned).2.1
  refine ⟨hassigned, ?_, ?_⟩
  · exact (hvalues Setting.catalog[9] (by decide)).2.1
  · exact (hvalues Setting.catalog[7] (by decide)).2.1

end ReviewQueue.Settings
