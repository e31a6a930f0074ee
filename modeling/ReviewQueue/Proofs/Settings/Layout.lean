import ReviewQueue.Domain.Status
import ReviewQueue.Proofs.Settings.Table
import ReviewQueue.Settings.Render

/-! # The configuration file as a layout

The settings are written section by section. A setting is an entry of its section, or a comment when
it is commented out; a section that has no entry left is a comment as a whole. So the lines of the
file lay out a mapping, whatever texts, numbers and lists of statuses the settings hold.

* `SettingValue.ReadsBack` — a value that is written in one line and read from there
* `settingLines_catalog` — the lines of the settings, section by section
* `shown?`, `shownSection?`, `fileEntries` — the entries of the file
* `entries_eq_nil_iff` — a section has none when it is commented out
* `fileLines_lay` — the lines of the file lay out its entries
-/

namespace ReviewQueue

/-! ## Values -/

namespace SettingValue

/-- The node that is written for a value. -/
def node : SettingValue → Yaml
  | .text t => .scalar false "" t
  | .list items => .sequence (items.map fun v => .scalar true "" v.shown)
  | v => .scalar true "" v.shown

/-- A value that stands in one line, and that is read from there. -/
structure ReadsBack (v : SettingValue) : Prop where
  inline : Yaml.Inline v.written.toList v.node
  value (depth : Nat) : ofYaml (depth + 2) v.node = .ok v
  present : Settings.present? (some v) = some v

theorem readsBack_text (t : String) : ReadsBack (.text t) where
  inline := Yaml.inline_quoted t
  value _ := rfl
  present := rfl

theorem readsBack_int {n : Int} (h : fitsWord n = true) : ReadsBack (.int n) where
  inline := Yaml.inline_ofInt n
  value depth := by
    show (Yaml.meaning true "" (Text.ofInt n)).map ofMeaning = _
    rw [Yaml.meaning, Yaml.plainMeaning_ofInt h]
    rfl
  present := rfl

theorem status_words : ∀ st ∈ Status.known, Yaml.IsWord st.label.toList ∧
    Yaml.plainMeaning st.label = .text st.label := by
  decide

/-- The items of a list of statuses are read as their texts. -/
theorem mapM_ofYaml_labels {items : List Status} (h : ∀ st ∈ items, st ∈ Status.known)
    (depth : Nat) :
    (items.map fun st => Yaml.scalar true "" st.label).mapM (ofYaml (depth + 1)) =
      .ok (items.map fun st => .text st.label) := by
  induction items with
  | nil => rfl
  | cons st items ih =>
      have hword := (status_words st (h st List.mem_cons_self)).2
      have hfirst : ofYaml (depth + 1) (.scalar true "" st.label) = .ok (.text st.label) := by
        show (Yaml.meaning true "" st.label).map ofMeaning = _
        rw [Yaml.meaning, hword]
        rfl
      rw [List.map_cons, List.mapM_cons, hfirst,
        ih fun d hd => h d (List.mem_cons_of_mem st hd)]
      rfl

theorem readsBack_statuses {items : List Status} (h : ∀ st ∈ items, st ∈ Status.known) :
    ReadsBack (.texts (items.map (·.label))) where
  inline := by
    have hwritten : (texts (items.map (·.label))).written.toList =
        '[' :: ([',', ' '].intercalate (items.map (·.label.toList)) ++ [']']) := by
      simp [texts, written, shown, Function.comp_def]
    have hnode : (texts (items.map (·.label))).node =
        .sequence ((items.map (·.label.toList)).map fun w => .scalar true "" (.ofList w)) := by
      simp [texts, node, shown, Function.comp_def]
    rw [hwritten, hnode]
    refine Yaml.inline_words fun w hw => ?_
    obtain ⟨st, hst, rfl⟩ := List.mem_map.mp hw
    exact (status_words st (h st hst)).1
  value depth := by
    have hnode : (texts (items.map (·.label))).node =
        .sequence (items.map fun st => .scalar true "" st.label) := by
      simp [texts, node, shown, Function.comp_def]
    rw [hnode, ofYaml]
    simp only [mapM_ofYaml_labels h, bind, Except.bind]
    simp [texts, pure, Except.pure, Function.comp_def]
  present := rfl

end SettingValue

/-! ## The catalog -/

namespace Setting

/-- The section of a setting, empty when it has none. -/
def sect (st : Setting) : String := (splitKey st.key).1

/-- The name of a setting in its section. -/
def leaf (st : Setting) : String := (splitKey st.key).2

/-- The settings of a section. -/
def group (sect : String) : List Setting := catalog.filter (·.sect == sect)

/-- The sections that there are, in the order of the catalog. -/
def sections : List String := ((catalog.map sect).filter (· != "")).eraseDups

theorem names_eq : catalog.map (fun st => (st.sect, st.leaf)) =
    [("", "state_dir"), ("", "db_path"), ("api", "url"), ("serve", "port"),
     ("review", "path_template"), ("review", "valid_statuses"), ("review", "success_message"),
     ("review", "read_only_statuses"), ("anthropic", "api_key"), ("anthropic", "model")] := by
  decide +kernel

theorem sections_eq : sections = ["api", "serve", "review", "anthropic"] := by
  have hsects := congrArg (List.map Prod.fst) names_eq
  rw [List.map_map] at hsects
  have hmap : catalog.map sect = catalog.map (Prod.fst ∘ fun st => (st.sect, st.leaf)) := rfl
  rw [sections, hmap, hsects]
  decide

/-- The settings stand section by section, after those that have none. -/
theorem catalog_eq : catalog = group "" ++ sections.flatMap group := by
  rw [sections_eq]
  rfl

/-- What holds of all names, with their sections, holds of all settings. -/
theorem forall_names {P : String × String → Prop}
    (h : ∀ name ∈ catalog.map (fun st => (st.sect, st.leaf)), P name) :
    ∀ st ∈ catalog, P (st.sect, st.leaf) :=
  fun st hst => h _ (List.mem_map.mpr ⟨st, hst, rfl⟩)

theorem isName_leaf : ∀ st ∈ catalog, FileEntry.IsName st.leaf := by
  have hall := forall_names (P := fun name => Yaml.IsWord name.2.toList ∧
    Yaml.plainMeaning name.2 = .text name.2 ∧ name.2 ≠ "<<" ∧ name.2.toLower = name.2)
    (by rw [names_eq]; decide +kernel)
  intro st hst
  obtain ⟨hword, hplain, hmerge, hlower⟩ := hall st hst
  exact ⟨hword, hplain, hmerge, hlower⟩

theorem isName_sect : ∀ sect ∈ sections, FileEntry.IsName sect := by
  have hall : ∀ sect ∈ sections, Yaml.IsWord sect.toList ∧
      Yaml.plainMeaning sect = .text sect ∧ sect ≠ "<<" ∧ sect.toLower = sect := by
    rw [sections_eq]
    decide +kernel
  intro sect hsect
  obtain ⟨hword, hplain, hmerge, hlower⟩ := hall sect hsect
  exact ⟨hword, hplain, hmerge, hlower⟩

theorem ne_empty_of_mem_sections {sect : String} (h : sect ∈ sections) : sect ≠ "" := by
  rintro rfl
  exact (isName_sect "" h).word.1 rfl

theorem sect_mem_sections {st : Setting} (h : st ∈ catalog) (hsect : st.sect ≠ "") :
    st.sect ∈ sections := by
  have hall := forall_names (P := fun name => name.1 ≠ "" → name.1 ∈ sections)
    (by rw [names_eq, sections_eq]; decide)
  exact hall st h hsect

theorem leaves_eq (sect : String) : (group sect).map leaf =
    ((catalog.map fun st => (st.sect, st.leaf)).filter (·.1 == sect)).map (·.2) := by
  rw [List.filter_map, List.map_map]
  rfl

/-- The names in a section differ. -/
theorem nodup_leaves : ∀ sect ∈ "" :: sections, ((group sect).map leaf).Nodup := by
  simp only [leaves_eq, names_eq, sections_eq]
  decide

/-- So do the names outside of sections and those of the sections. -/
theorem nodup_names : ((group "").map leaf ++ sections).Nodup := by
  rw [leaves_eq, names_eq, sections_eq]
  decide

theorem printable_sample : ∀ st ∈ catalog, ∀ c ∈ st.sample.toList, Text.isPrintable c = true := by
  have hall : ∀ st ∈ catalog, st.sample.toList.all Text.isPrintable = true := by decide +kernel
  exact fun st hst => List.all_eq_true.mp (hall st hst)

theorem printable_help : ∀ st ∈ catalog, ∀ c ∈ st.help.toList, Text.isPrintable c = true := by
  intro st hst
  simp only [catalog, List.mem_cons, List.not_mem_nil, or_false] at hst
  rcases hst with rfl | rfl | rfl | rfl | rfl | rfl | rfl | rfl | rfl | rfl
  -- one text is put together from two
  case inr.inr.inr.inr.inl =>
    exact Text.printable_append (Text.printable_ofList (by decide +kernel))
      (Text.printable_ofList (by decide +kernel))
  all_goals exact Text.printable_ofList (by decide +kernel)

end Setting

namespace Settings

variable (s : Settings)

/-! ## The lines of the file -/

/-- The lines of the configuration file. -/
def fileLines : List String :=
  ["# rq configuration", "# See: rq config show (for effective values and sources)"] ++
    s.settingLines "" Setting.catalog

theorem toList_render : s.render.toList = Yaml.joined (s.fileLines.map String.toList) := by
  have hrender : s.render = String.join (s.fileLines.map (· ++ "\n")) := rfl
  rw [hrender, String.toList_join, List.flatMap_map, Yaml.joined, List.flatMap_map]
  simp

/-- The lines of a setting: an empty one, its help, and its value. -/
def settingBlock (st : Setting) : List String :=
  let indent := if st.sect = "" then "" else "  "
  ["", indent ++ "# " ++ st.help,
    indent ++ (if (s.settingLine st).2 then "# " else "") ++ (s.settingLine st).1]

theorem settingLines_cons (current : String) (st : Setting) (rest : List Setting) :
    s.settingLines current (st :: rest) =
      (if st.sect = current then [] else s.sectionHead st.sect) ++ s.settingBlock st ++
        s.settingLines st.sect rest := rfl

/-- The settings of a section that was opened stand one after the other. -/
theorem settingLines_same {sect : String} {sts : List Setting} (h : ∀ st ∈ sts, st.sect = sect)
    (rest : List Setting) :
    s.settingLines sect (sts ++ rest) = sts.flatMap s.settingBlock ++ s.settingLines sect rest := by
  induction sts with
  | nil => rfl
  | cons st sts ih =>
      have hst := h st List.mem_cons_self
      rw [List.cons_append, settingLines_cons, if_pos hst, List.nil_append, hst,
        ih fun d hd => h d (List.mem_cons_of_mem st hd), List.flatMap_cons, List.append_assoc]

/-- The lines of a section. -/
def sectionLines (sect : String) : List String :=
  s.sectionHead sect ++ (Setting.group sect).flatMap s.settingBlock

theorem sect_of_mem_group {sect : String} {st : Setting} (h : st ∈ Setting.group sect) :
    st.sect = sect := by
  simpa using (List.mem_filter.mp h).2

/-- Sections are opened in turn. -/
theorem settingLines_groups {sects : List String} (hne : ∀ sect ∈ sects, Setting.group sect ≠ [])
    (current : String) (hnodup : (current :: sects).Nodup) :
    s.settingLines current (sects.flatMap Setting.group) = sects.flatMap s.sectionLines := by
  induction sects generalizing current with
  | nil => rfl
  | cons sect sects ih =>
      obtain ⟨st, sts, hgroup⟩ := List.exists_cons_of_ne_nil (hne sect List.mem_cons_self)
      have hsect : ∀ d ∈ st :: sts, d.sect = sect := fun d hd =>
        sect_of_mem_group (hgroup ▸ hd)
      have hnew : sect ≠ current := fun heq =>
        (List.nodup_cons.mp hnodup).1 (heq ▸ List.mem_cons_self)
      rw [List.flatMap_cons, List.flatMap_cons, hgroup, List.cons_append, settingLines_cons,
        hsect st List.mem_cons_self, if_neg hnew,
        s.settingLines_same fun d hd => hsect d (List.mem_cons_of_mem st hd),
        ih (fun d hd => hne d (List.mem_cons_of_mem sect hd)) sect (List.nodup_cons.mp hnodup).2,
        sectionLines, hgroup, List.flatMap_cons]
      simp only [List.append_assoc]

theorem settingLines_catalog :
    s.settingLines "" Setting.catalog =
      (Setting.group "").flatMap s.settingBlock ++ Setting.sections.flatMap s.sectionLines := by
  have hne : ∀ sect ∈ Setting.sections, Setting.group sect ≠ [] := fun sect hsect hnil => by
    have hleaves := Setting.leaves_eq sect
    rw [hnil, Setting.names_eq] at hleaves
    rw [Setting.sections_eq] at hsect
    revert sect
    decide
  have hnodup : ("" :: Setting.sections).Nodup := by
    rw [Setting.sections_eq]
    decide
  rw [Setting.catalog_eq, s.settingLines_same fun st => sect_of_mem_group,
    s.settingLines_groups hne "" hnodup]

/-! ## Entries -/

/-- The entry of a setting, unless it is commented out. -/
def shown? (st : Setting) : Option FileEntry :=
  if (s.settingLine st).2 then none
  else some ⟨st.leaf, (s.get st.key).node, s.get st.key⟩

/-- The entries of a section. -/
def entries (sect : String) : List FileEntry := (Setting.group sect).filterMap s.shown?

/-- A section as an entry, unless all of it is commented out. -/
def shownSection? (sect : String) : Option FileEntry :=
  if s.sectionCommented sect then none
  else some ⟨sect, .mapping ((s.entries sect).map FileEntry.pair),
    .table (FileEntry.table (s.entries sect))⟩

theorem settingLine_live {st : Setting} (h : (s.settingLine st).2 = false) :
    (s.settingLine st).1 = st.leaf ++ ": " ++ (s.get st.key).written := by
  unfold settingLine at h ⊢
  dsimp only at h ⊢
  split at h
  · cases h
  · rename_i hlive
    rw [if_neg hlive]
    rfl

/-- What is written after the name of a setting. -/
theorem settingLine_text (st : Setting) :
    (s.settingLine st).1 = st.leaf ++ ": " ++ st.sample ∨
      (s.settingLine st).1 = st.leaf ++ ": " ++ (s.get st.key).written := by
  unfold settingLine
  dsimp only
  split
  · exact .inl rfl
  · exact .inr rfl

/-! ## The layout of the file -/

/-- The column of a setting. -/
def column (st : Setting) : Nat := if st.sect = "" then 0 else 2

theorem toList_indent (st : Setting) :
    (if st.sect = "" then "" else "  ").toList = List.replicate (column st) ' ' := by
  unfold column
  split
  · rfl
  · rfl

theorem isNote_comment (column : Nat) {text : List Char}
    (h : ∀ c ∈ text, Text.isPrintable c = true) :
    Yaml.IsNote (Yaml.indented column ('#' :: ' ' :: text)) := by
  refine ⟨column, '#' :: ' ' :: text, rfl, .inr rfl, fun c hc => ?_⟩
  rcases List.mem_cons.mp hc with rfl | hc
  · decide
  · rcases List.mem_cons.mp hc with rfl | hc
    · decide
    · exact h c hc

theorem isNote_nil : Yaml.IsNote [] :=
  ⟨0, [], rfl, .inl rfl, fun _ hc => absurd hc List.not_mem_nil⟩

variable {s}

/-- A setting is laid out as its entry, or as comments. -/
theorem settingBlock_lays {st : Setting} (hst : st ∈ Setting.catalog)
    (hvalue : (s.get st.key).ReadsBack) :
    Yaml.Lays (column st) ((s.settingBlock st).map String.toList)
      ((s.shown? st).toList.map FileEntry.pair) := by
  have hname := Setting.isName_leaf st hst
  have hhelp := Setting.printable_help st hst
  have hlines : (s.settingBlock st).map String.toList =
      [[], Yaml.indented (column st) ('#' :: ' ' :: st.help.toList),
        Yaml.indented (column st)
          ((if (s.settingLine st).2 then "# " else "").toList ++ (s.settingLine st).1.toList)] := by
    simp [settingBlock, toList_indent, Yaml.indented]
  have hleaf : ∀ c ∈ st.leaf.toList, Text.isPrintable c = true := fun c hc =>
    Yaml.isPrintable_of_isWordChar (hname.word.2 c hc)
  have hprintable : ∀ c ∈ (s.settingLine st).1.toList, Text.isPrintable c = true := by
    have hstart := Text.printable_append hleaf
      (show ∀ c ∈ ": ".toList, Text.isPrintable c = true from List.all_eq_true.mp (by decide))
    rcases s.settingLine_text st with htext | htext
    · rw [htext]
      exact Text.printable_append hstart (Setting.printable_sample st hst)
    · rw [htext]
      exact Text.printable_append hstart hvalue.inline.printable
  rw [hlines]
  refine .note isNote_nil (.note (isNote_comment _ hhelp) ?_)
  unfold shown?
  split
  · exact .note (isNote_comment _ hprintable) .done
  · rename_i hlive
    have hline : "".toList ++ (s.settingLine st).1.toList =
        st.leaf.toList ++ ':' :: ' ' :: (s.get st.key).written.toList := by
      rw [s.settingLine_live (by simpa using hlive)]
      simp
    rw [hline]
    exact .entry hname.word hvalue.inline .done

/-- Every setting of the catalog holds something that is read back. -/
def Readable (s : Settings) : Prop :=
  ∀ st ∈ Setting.catalog, (s.get st.key).ReadsBack

theorem map_pair_filterMap {α : Type} (shown? : α → Option FileEntry) (items : List α) :
    (items.filterMap shown?).map FileEntry.pair =
      items.flatMap fun a => (shown? a).toList.map FileEntry.pair := by
  rw [List.filterMap_eq_flatMap_toList, List.map_flatMap]

theorem group_lays (h : s.Readable) (sect : String) :
    Yaml.Lays (if sect = "" then 0 else 2)
      (((Setting.group sect).flatMap s.settingBlock).map String.toList)
      ((s.entries sect).map FileEntry.pair) := by
  rw [List.map_flatMap, entries, map_pair_filterMap]
  refine .flatMap fun st hst => ?_
  have hcatalog : st ∈ Setting.catalog := (List.mem_filter.mp hst).1
  have hlays := settingBlock_lays hcatalog (h st hcatalog)
  rwa [column, sect_of_mem_group hst] at hlays

/-- A section has no entries when all its settings are commented out, and only then. -/
theorem entries_eq_nil_iff (sect : String) :
    s.entries sect = [] ↔ s.sectionCommented sect = true := by
  have hall : s.sectionCommented sect = (Setting.group sect).all fun st => (s.settingLine st).2 :=
    rfl
  rw [hall, List.all_eq_true, entries, List.filterMap_eq_nil_iff]
  refine forall_congr' fun st => forall_congr' fun _ => ?_
  simp [shown?]

/-- A section is laid out as its entry, or as comments. -/
theorem sectionLines_lay (h : s.Readable) {sect : String} (hsect : sect ∈ Setting.sections) :
    Yaml.Lays 0 ((s.sectionLines sect).map String.toList)
      ((s.shownSection? sect).toList.map FileEntry.pair) := by
  have hname := Setting.isName_sect sect hsect
  have hne : sect ≠ "" := Setting.ne_empty_of_mem_sections hsect
  have hgroup := group_lays h sect
  rw [if_neg hne] at hgroup
  have hhead : (s.sectionLines sect).map String.toList =
      [] :: ((if s.sectionCommented sect then "# " else "").toList ++ (sect.toList ++ [':'])) ::
        ((Setting.group sect).flatMap s.settingBlock).map String.toList := by
    simp [sectionLines, sectionHead, hne]
  rw [hhead]
  refine .note isNote_nil ?_
  unfold shownSection?
  split
  · rename_i hcommented
    rw [(entries_eq_nil_iff sect).mpr hcommented] at hgroup
    have hprintable : ∀ c ∈ sect.toList ++ [':'], Text.isPrintable c = true := fun c hc => by
      rcases List.mem_append.mp hc with hc | hc
      · exact Yaml.isPrintable_of_isWordChar (hname.word.2 c hc)
      · rw [List.mem_singleton.mp hc]
        decide
    have hnotes := hgroup.notes_of_nil
    refine .note (isNote_comment 0 hprintable) ?_
    rw [← List.append_nil (((Setting.group sect).flatMap s.settingBlock).map String.toList)]
    exact .notes hnotes .done
  · rename_i hlive
    have hpairs : (s.entries sect).map FileEntry.pair ≠ [] := by
      rw [Ne, List.map_eq_nil_iff, entries_eq_nil_iff]
      exact hlive
    have hnested := Yaml.Lays.nested hname.word (show 0 < 2 by decide) hpairs hgroup .done
    rw [List.append_nil] at hnested
    exact hnested

/-- The entries of the file: the settings outside of sections, and the sections. -/
def fileEntries (s : Settings) : List FileEntry :=
  s.entries "" ++ Setting.sections.filterMap s.shownSection?

/-- The lines of the file lay out its entries. -/
theorem fileLines_lay (h : s.Readable) :
    Yaml.Lays 0 (s.fileLines.map String.toList) (s.fileEntries.map FileEntry.pair) := by
  have hheading : ∀ line ∈ ["# rq configuration",
      "# See: rq config show (for effective values and sources)"].map String.toList,
      Yaml.IsNote line := by
    have hfirst : ∀ c ∈ "rq configuration".toList, Text.isPrintable c = true :=
      Text.printable_ofList (by decide)
    have hsecond : ∀ c ∈ "See: rq config show (for effective values and sources)".toList,
        Text.isPrintable c = true := Text.printable_ofList (by decide)
    intro line hline
    simp only [List.map_cons, List.map_nil, List.mem_cons, List.not_mem_nil, or_false] at hline
    rcases hline with rfl | rfl
    · exact isNote_comment 0 hfirst
    · exact isNote_comment 0 hsecond
  have hsections : Yaml.Lays 0 ((Setting.sections.flatMap s.sectionLines).map String.toList)
      ((Setting.sections.filterMap s.shownSection?).map FileEntry.pair) := by
    rw [List.map_flatMap, map_pair_filterMap]
    exact .flatMap fun sect hsect => sectionLines_lay h hsect
  rw [fileLines, List.map_append, settingLines_catalog, List.map_append, fileEntries,
    List.map_append]
  exact Yaml.Lays.notes hheading ((group_lays h "").append hsections)

end Settings
end ReviewQueue
