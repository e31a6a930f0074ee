import Mathlib.Data.List.Nodup
import ReviewQueue.Proofs.Yaml.Layout
import ReviewQueue.Settings.OfFile

/-! # Mappings read as tables of settings

A mapping whose names are all different is read as the table of its entries. The table is sorted by
the names, which is no matter to who looks a name up.

* `lookup_mergeSort` — sorting does not change what is found under a name
* `FileEntry` — an entry of a file: its name, its node and the value that is read
* `ofYaml_mapping` — a mapping of such entries is read as their table
* `lookup_filterMap` — what the table holds under a name
-/

namespace ReviewQueue

/-! ## Looking names up -/

section Lookup

variable {β : Type} {entries sorted : List (String × β)} {name : String} {value : β}

theorem mem_of_lookup (h : entries.lookup name = some value) : (name, value) ∈ entries := by
  obtain ⟨before, after, rfl, -⟩ := List.lookup_eq_some_iff.mp h
  exact List.mem_append_right before List.mem_cons_self

theorem lookup_of_mem (hnames : (entries.map (·.1)).Nodup) (h : (name, value) ∈ entries) :
    entries.lookup name = some value := by
  obtain ⟨before, after, rfl⟩ := List.append_of_mem h
  refine List.lookup_eq_some_iff.mpr ⟨before, after, rfl, fun e he => bne_iff_ne.mpr ?_⟩
  rintro rfl
  rw [List.map_append, List.map_cons] at hnames
  exact (List.nodup_append.mp hnames).2.2 _ (List.mem_map_of_mem he) _ List.mem_cons_self rfl

/-- What is found under a name does not depend on the order of entries with different names. -/
theorem lookup_perm (hnames : (entries.map (·.1)).Nodup) (h : sorted.Perm entries) :
    sorted.lookup name = entries.lookup name := by
  have hsorted : (sorted.map (·.1)).Nodup := (h.map (·.1)).nodup_iff.mpr hnames
  refine Option.ext fun value => ⟨fun hfound => ?_, fun hfound => ?_⟩
  · exact lookup_of_mem hnames (h.mem_iff.mp (mem_of_lookup hfound))
  · exact lookup_of_mem hsorted (h.mem_iff.mpr (mem_of_lookup hfound))

end Lookup

/-! ## Entries -/

/-- An entry of a file: its name, the node that is written for it, and the value that is read. -/
structure FileEntry where
  name : String
  node : Yaml
  value : SettingValue

namespace FileEntry

/-- A name that is read as itself: a word in lower case that stands for nothing else. -/
structure IsName (name : String) : Prop where
  word : Yaml.IsWord name.toList
  plain : Yaml.plainMeaning name = .text name
  notMerge : name ≠ "<<"
  lower : name.toLower = name

/-- The key and the node. -/
def pair (e : FileEntry) : Yaml × Yaml := (Yaml.wordKey e.name.toList, e.node)

/-- The entries of a table, sorted by their names. -/
def table (entries : List FileEntry) : List (String × SettingValue) :=
  (entries.map fun e => (e.name, e.value)).mergeSort fun x y => decide (x.1 ≤ y.1)

/-- An entry whose name and node are read as they should be. -/
structure Reads (depth : Nat) (e : FileEntry) : Prop where
  name : IsName e.name
  value : SettingValue.ofYaml depth e.node = .ok e.value

/-! ## Tables -/

section Table

variable {entries : List FileEntry}

theorem lookup_table (hnames : (entries.map (·.name)).Nodup) {e : FileEntry} (h : e ∈ entries) :
    (table entries).lookup e.name = some e.value := by
  have hkeys : ((entries.map fun e => (e.name, e.value)).map (·.1)).Nodup := by
    rw [List.map_map]
    exact hnames
  rw [table, lookup_perm hkeys (List.mergeSort_perm _ _)]
  exact lookup_of_mem hkeys (List.mem_map.mpr ⟨e, h, rfl⟩)

theorem lookup_table_eq_none {name : String} (h : ∀ e ∈ entries, e.name ≠ name) :
    (table entries).lookup name = none := by
  rw [Option.eq_none_iff_forall_ne_some]
  intro value hfound
  have hmem := (List.mergeSort_perm _ _).mem_iff.mp (mem_of_lookup hfound)
  obtain ⟨e, he, heq⟩ := List.mem_map.mp hmem
  exact h e he (congrArg (·.1) heq)

section Items

variable {α : Type} {items : List α} {name : α → String} {entryOf : α → Option FileEntry}
  (hname : ∀ a e, entryOf a = some e → e.name = name a) (hnodup : (items.map name).Nodup)
include hname hnodup

/-- The entries of items with different names have different names. -/
theorem nodup_filterMap : ((items.filterMap entryOf).map (·.name)).Nodup := by
  refine List.Sublist.nodup ?_ hnodup
  clear hnodup
  induction items with
  | nil => exact .slnil
  | cons b items ih =>
      cases hb : entryOf b with
      | none =>
          rw [List.filterMap_cons_none hb]
          exact .cons _ ih
      | some d =>
          rw [List.filterMap_cons_some hb, List.map_cons, List.map_cons, hname b d hb]
          exact .cons_cons _ ih

/-- Under the name of an item the table holds the entry of the item, if it has one. -/
theorem lookup_filterMap {a : α} (ha : a ∈ items) :
    (table (items.filterMap entryOf)).lookup (name a) = (entryOf a).map (·.value) := by
  cases hentry : entryOf a with
  | none =>
      -- another item would have to have the same name
      refine lookup_table_eq_none fun e he heq => ?_
      obtain ⟨b, hb, hbe⟩ := List.mem_filterMap.mp he
      obtain rfl : b = a :=
        List.inj_on_of_nodup_map hnodup hb ha ((hname b e hbe).symm.trans heq)
      rw [hentry] at hbe
      cases hbe
  | some e =>
      rw [← hname a e hentry, lookup_table (nodup_filterMap hname hnodup)
        (List.mem_filterMap.mpr ⟨a, ha, hentry⟩)]
      rfl

end Items

theorem sameKey_pair (e d : FileEntry) : Yaml.sameKey e.pair.1 d.pair.1 = (e.name == d.name) := by
  simp [pair, Yaml.wordKey, Yaml.sameKey]

theorem uniqueKeys_pairs (hnames : (entries.map (·.name)).Nodup) :
    Yaml.uniqueKeys (entries.map pair) = true := by
  induction entries with
  | nil => rfl
  | cons e entries ih =>
      rw [List.map_cons, List.nodup_cons] at hnames
      -- no later entry has the name of the first one
      have hnew : (entries.map pair).any (fun d => Yaml.sameKey e.pair.1 d.1) = false := by
        rw [List.any_map, List.any_eq_false]
        intro d hd
        rw [Function.comp_apply, sameKey_pair, beq_iff_eq]
        intro heq
        exact hnames.1 (List.mem_map.mpr ⟨d, hd, heq.symm⟩)
      show (!(entries.map pair).any (fun d => Yaml.sameKey e.pair.1 d.1) &&
        Yaml.uniqueKeys (entries.map pair)) = true
      rw [hnew, ih hnames.2]
      rfl

theorem splitMembers_pairs (h : ∀ e ∈ entries, IsName e.name) :
    Yaml.splitMembers (entries.map pair) = .ok (entries.map fun e => (e.name, e.node), []) := by
  induction entries with
  | nil => rfl
  | cons e entries ih =>
      have he := h e List.mem_cons_self
      have hmore := ih fun d hd => h d (List.mem_cons_of_mem e hd)
      have hmerge : Yaml.isMergeKey (Yaml.wordKey e.name.toList) = false := by
        simp [Yaml.isMergeKey, Yaml.wordKey, he.notMerge]
      have htext : Yaml.decodeText (Yaml.wordKey e.name.toList) = .ok (some e.name) := by
        simp only [Yaml.decodeText, Yaml.wordKey, Yaml.meaning, String.ofList_toList, he.plain]
        rfl
      rw [List.map_cons, pair, Yaml.splitMembers]
      simp only [hmore, hmerge, htext, bind, Except.bind]
      rfl

/-- A mapping of entries is read as their table. -/
theorem ofYaml_mapping {depth : Nat} (hnames : (entries.map (·.name)).Nodup)
    (h : ∀ e ∈ entries, e.Reads depth) :
    SettingValue.ofYaml (depth + 1) (.mapping (entries.map pair)) =
      .ok (.table (table entries)) := by
  have hmembers : Yaml.members (.mapping (entries.map pair)) =
      .ok (entries.map fun e => (e.name, e.node)) := by
    rw [Yaml.members, uniqueKeys_pairs hnames, splitMembers_pairs fun e he => (h e he).name]
    rfl
  have hvalues : (entries.map fun e => (e.name, e.node)).mapM (fun (e : String × Yaml) => do
      return (e.1.toLower, ← SettingValue.ofYaml depth e.2)) =
        Except.ok (ε := YamlError) (entries.map fun e => (e.name, e.value)) := by
    clear hmembers hnames
    induction entries with
    | nil => rfl
    | cons e entries ih =>
        obtain ⟨hname, hvalue⟩ := h e List.mem_cons_self
        -- a name in lower case is the one that the table has
        rw [List.map_cons, List.mapM_cons, ih fun d hd => h d (List.mem_cons_of_mem e hd)]
        simp only [hvalue, hname.lower, bind, Except.bind]
        rfl
  rw [SettingValue.ofYaml]
  simp only [hmembers, bind, Except.bind] at hvalues ⊢
  rw [hvalues]
  rfl

end Table

end FileEntry
end ReviewQueue
