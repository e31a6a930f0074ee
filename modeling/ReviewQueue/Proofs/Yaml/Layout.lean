import ReviewQueue.Proofs.Yaml.Scalar

/-! # Mappings laid out in lines

A mapping is laid out with one line for each key, at one column, and the mapping of a key further
in on the lines that follow it. Between the lines there may be any that say nothing.

* `key?_word` — a word before a colon is a key
* `Lays` — which lines lay out which entries
* `Lays.blockEntries` — lines that lay out entries are read as those entries
* `IsLine`, `Lays.isLine` — they are printable, and none of them is a marker
* `read_of_lays` — a text of such lines is read as their mapping
-/

namespace ReviewQueue.Yaml

/-! ## Keys -/

/-- A word as a key. -/
def wordKey (key : List Char) : Yaml := .scalar true "" (.ofList key)

theorem plainKey_word {key : List Char} (hkey : ∀ c ∈ key, isWordChar c = true) {rest : List Char}
    (hrest : endsWord rest = true) {fuel : Nat} (hfuel : key.length < fuel) (read : List Char) :
    plainKey fuel read (key ++ ':' :: rest) = some (dropGaps (key.reverse ++ read), rest) := by
  induction key generalizing fuel read with
  | nil =>
      obtain ⟨fuel, rfl⟩ := Nat.exists_eq_add_one.mpr (Nat.zero_lt_of_lt hfuel)
      have hcolon : isColon (':' :: rest) = true := hrest
      simp [plainKey, hcolon]
  | cons c key ih =>
      obtain ⟨fuel, rfl⟩ := Nat.exists_eq_add_one.mpr (Nat.zero_lt_of_lt hfuel)
      have hc := hkey c List.mem_cons_self
      have hhash : c ≠ '#' := ne_of_isWordChar hc (by decide)
      -- the colon that ends the key is not in it
      have hcolon : isColon (c :: (key ++ ':' :: rest)) = false := by
        unfold isColon
        split
        · rename_i heq
          cases heq
          cases hc
        · rfl
      have hmore := ih (fun d hd => hkey d (List.mem_cons_of_mem c hd))
        (show key.length < fuel by simpa using hfuel) (c :: read)
      rw [List.cons_append, plainKey, hcolon, isBreak_of_isWordChar hc]
      simp only [Bool.false_eq_true, if_false, hhash, false_and]
      rw [hmore, List.reverse_cons, List.append_assoc, List.singleton_append]

theorem dropGaps_word {key : List Char} (hkey : IsWord key) :
    dropGaps key.reverse = key.reverse := by
  obtain ⟨c, w, hreverse⟩ :=
    List.exists_cons_of_ne_nil (List.reverse_ne_nil_iff.mpr hkey.1)
  have hc : isWordChar c = true :=
    hkey.2 c (List.mem_reverse.mp (hreverse ▸ List.mem_cons_self))
  have hgap : isGap c = false := (isSpace_eq_false_iff.mp (isSpace_of_isWordChar hc)).1
  rw [hreverse, dropGaps, List.dropWhile_cons_of_neg (by rw [hgap]; decide)]

/-- A word and a colon are a key. -/
theorem key?_word {key : List Char} (hkey : IsWord key) {rest : List Char}
    (hrest : endsWord rest = true) (fuel : Nat) :
    key? (fuel + 1) (key ++ ':' :: rest) = some (wordKey key, rest) := by
  have hfuel : key.length < (key ++ ':' :: rest).length + 1 := by
    rw [List.length_append, List.length_cons]
    omega
  have hplain := plainKey_word hkey.2 hrest hfuel []
  rw [List.append_nil, dropGaps_word hkey] at hplain
  obtain ⟨c, w, rfl⟩ := List.exists_cons_of_ne_nil hkey.1
  have hc := hkey.2 c List.mem_cons_self
  have hproperty : property? (c :: w ++ ':' :: rest) = none := by
    unfold property?
    split
    · rename_i heq
      cases heq
      cases hc
    · rename_i heq
      cases heq
      cases hc
    · rfl
  have hstart : startsPlain false (c :: w ++ ':' :: rest) = true :=
    startsPlain_of_isWordChar hc false _
  rw [key?, hproperty]
  show bareKey? (c :: w ++ ':' :: rest) = _
  rw [bareKey?, if_pos hstart, hplain]
  simp [wordKey]

/-! ## Lines -/

/-- A line at a column that starts with a key. -/
def keyLine (column : Nat) (key rest : List Char) : List Char :=
  indented column (key ++ ':' :: rest)

/-- The lines that lay out the entries of a mapping at a column. -/
inductive Lays : Nat → List (List Char) → List (Yaml × Yaml) → Prop
  | done {column : Nat} : Lays column [] []
  | note {column : Nat} {line : List Char} {lines : List (List Char)} {entries : List (Yaml × Yaml)}
      (h : IsNote line) (more : Lays column lines entries) : Lays column (line :: lines) entries
  | entry {column : Nat} {key text : List Char} {node : Yaml} {lines : List (List Char)}
      {entries : List (Yaml × Yaml)} (hkey : IsWord key) (h : Inline text node)
      (more : Lays column lines entries) :
      Lays column (keyLine column key (' ' :: text) :: lines) ((wordKey key, node) :: entries)
  | nested {column deeper : Nat} {key : List Char} {inner lines : List (List Char)}
      {members entries : List (Yaml × Yaml)} (hkey : IsWord key) (hdeeper : column < deeper)
      (hne : members ≠ []) (h : Lays deeper inner members) (more : Lays column lines entries) :
      Lays column (keyLine column key [] :: (inner ++ lines))
        ((wordKey key, .mapping members) :: entries)

section Lays

variable {column : Nat} {lines : List (List Char)} {entries : List (Yaml × Yaml)}

theorem Lays.notes {notes : List (List Char)} (hnotes : ∀ l ∈ notes, IsNote l)
    (h : Lays column lines entries) : Lays column (notes ++ lines) entries := by
  induction notes with
  | nil => exact h
  | cons line notes ih =>
      exact .note (hnotes line List.mem_cons_self)
        (ih fun l hl => hnotes l (List.mem_cons_of_mem line hl))

/-- Lines that lay out nothing say nothing. -/
theorem Lays.notes_of_nil (h : Lays column lines []) : ∀ line ∈ lines, IsNote line := by
  generalize hentries : ([] : List (Yaml × Yaml)) = entries at h
  induction h with
  | done => exact fun line hline => absurd hline List.not_mem_nil
  | note h _ ih =>
      intro line hline
      rcases List.mem_cons.mp hline with rfl | hline
      · exact h
      · exact ih hentries line hline
  | entry => cases hentries
  | nested => cases hentries

theorem Lays.append {more : List (List Char)} {rest : List (Yaml × Yaml)}
    (h : Lays column lines entries) (hmore : Lays column more rest) :
    Lays column (lines ++ more) (entries ++ rest) := by
  induction h with
  | done => exact hmore
  | note h _ ih => exact .note h (ih hmore)
  | entry hkey h _ ih => exact .entry hkey h (ih hmore)
  | nested hkey hdeeper hne h _ _ ih =>
      rw [List.cons_append, List.append_assoc]
      exact .nested hkey hdeeper hne h (ih hmore)

/-- Layouts in turn are the layout of the entries in turn. -/
theorem Lays.flatMap {α : Type} {items : List α} {lines : α → List (List Char)}
    {entries : α → List (Yaml × Yaml)} (h : ∀ a ∈ items, Lays column (lines a) (entries a)) :
    Lays column (items.flatMap lines) (items.flatMap entries) := by
  induction items with
  | nil => exact .done
  | cons a items ih =>
      exact (h a List.mem_cons_self).append (ih fun b hb => h b (List.mem_cons_of_mem a hb))

/-- The names of no node are resolved where there are none. -/
theorem Lays.resolved (h : Lays column lines entries) (known : Anchors) :
    resolveEntries known entries = .ok (entries, known) := by
  induction h with
  | done => rfl
  | note _ _ ih => exact ih
  | entry _ h _ ih =>
      rw [resolveEntries]
      simp only [wordKey, resolve, h.resolved, ih, bind, Except.bind]
      rfl
  | nested _ _ _ _ _ ihinner ih =>
      rw [resolveEntries]
      simp only [wordKey, resolve, ihinner, ih, bind, Except.bind, pure, Except.pure]

end Lays

section Key

variable {column : Nat} {key more s : List Char} (hkey : IsWord key)
include hkey

theorem skipLines_keyLine (more : List Char) :
    skipLines (keyLine column key more) = .ok (keyLine column key more) := by
  obtain ⟨c, w, rfl⟩ := List.exists_cons_of_ne_nil hkey.1
  exact skipLines_start (isStart_of_isWordChar (hkey.2 c List.mem_cons_self)) column _

theorem indentOf_keyLine (more : List Char) : indentOf (keyLine column key more) = column := by
  obtain ⟨c, w, rfl⟩ := List.exists_cons_of_ne_nil hkey.1
  exact indentOf_indented (isStart_of_isWordChar (hkey.2 c List.mem_cons_self)).ne.1 column _

theorem skipLines_joined (words : List Char) (lines : List (List Char)) (after : List Char) :
    skipLines (joined (keyLine column key words :: lines) ++ after) =
      .ok (keyLine column key (words ++ '\n' :: (joined lines ++ after))) := by
  have happend : joined (keyLine column key words :: lines) ++ after =
      keyLine column key (words ++ '\n' :: (joined lines ++ after)) := by
    simp [joined_cons, keyLine, indented]
  rw [happend, skipLines_keyLine hkey]

theorem not_mark_of_isWord (more : List Char) :
    isKeyMark (key ++ more) = false ∧ isDash (key ++ more) = false := by
  obtain ⟨c, w, rfl⟩ := List.exists_cons_of_ne_nil hkey.1
  have hc := hkey.2 c List.mem_cons_self
  constructor
  · unfold isKeyMark
    split
    · rename_i heq
      cases heq
      cases hc
    · rfl
  · unfold isDash
    split
    · rename_i heq
      cases heq
      cases hc
    · rfl

variable (hmore : endsWord more = true) (hskip : skipLines s = .ok (keyLine column key more))
include hmore hskip

/-- A line that starts with a key at the column of a mapping is an entry of it. -/
theorem blockEntries_keyLine (fuel : Nat) :
    blockEntries (fuel + 1) column s = blockEntry fuel column (wordKey key) more := by
  have hline : keyLine column key more ≠ [] := by simp [keyLine, indented]
  simp only [blockEntries, hskip, bind, Except.bind, List.isEmpty_eq_false_iff.mpr hline,
    indentOf_keyLine hkey, Nat.lt_irrefl, decide_false, Bool.or_false, Bool.false_eq_true,
    if_false]
  rw [keyLine, drop_indented, (not_mark_of_isWord hkey _).1, key?_word hkey hmore]
  rfl

/-- A line that starts with a key is the first entry of a mapping that stands below. -/
theorem belowNode_keyLine {room : Room} (hroom : room.least ≤ column) (fuel : Nat) :
    belowNode (fuel + 2) room s = (do
      let (entries, rest) ← blockEntries (fuel + 1) column s
      return (.mapping entries, rest)) := by
  have hline : keyLine column key more ≠ [] := by simp [keyLine, indented]
  obtain ⟨hmark, hdash⟩ := not_mark_of_isWord hkey (':' :: more)
  rw [blockEntries_keyLine hkey hmore hskip]
  simp only [belowNode, hskip, bind, Except.bind, List.isEmpty_eq_false_iff.mpr hline,
    indentOf_keyLine hkey, Bool.false_eq_true, if_false, if_pos hroom]
  rw [keyLine, drop_indented]
  simp only [blockNode, hmark, hdash, key?_word hkey hmore, Bool.false_eq_true, if_false]
  rfl

end Key

/-! ## Reading entries -/

/-- Lines at a column end before `rest`: at the end of the document, or where a line starts further
out. -/
structure Ends (column : Nat) (after rest : List Char) : Prop where
  skips : skipLines after = .ok rest
  settled : skipLines rest = .ok rest
  outside : rest = [] ∨ indentOf rest < column

section Reading

variable {column : Nat} {lines : List (List Char)} {entries : List (Yaml × Yaml)}
  {after rest : List Char}

/-- What the lines of a mapping start with, after those that say nothing: a key at the column, or
what follows them. -/
theorem Lays.leads (h : Lays column lines entries) (hends : Ends column after rest) :
    (entries = [] ∧ skipLines (joined lines ++ after) = .ok rest) ∨
      ∃ key more, IsWord key ∧ endsWord more = true ∧
        skipLines (joined lines ++ after) = .ok (keyLine column key more) := by
  induction h with
  | done => exact .inl ⟨rfl, hends.skips⟩
  | note h _ ih =>
      -- a line that says nothing is skipped, and what leads is further on
      rw [joined_cons, List.append_assoc, List.cons_append, skipLines_note h]
      exact ih hends
  | entry hkey _ _ _ => exact .inr ⟨_, _, hkey, rfl, skipLines_joined hkey _ _ _⟩
  | nested hkey _ _ _ _ _ _ => exact .inr ⟨_, _, hkey, rfl, skipLines_joined hkey _ _ _⟩

/-- Lines further out end the lines of the mapping that they follow. -/
theorem Lays.ends (h : Lays column lines entries) (hends : Ends column after rest) :
    ∃ r, skipLines (joined lines ++ after) = .ok r ∧ (r = [] ∨ indentOf r ≤ column) ∧
      skipLines r = .ok r := by
  rcases h.leads hends with ⟨-, hskip⟩ | ⟨key, more, hkey, -, hskip⟩
  · exact ⟨rest, hskip, hends.outside.imp_right Nat.le_of_lt, hends.settled⟩
  · exact ⟨_, hskip, .inr (indentOf_keyLine hkey more).le, skipLines_keyLine hkey more⟩

theorem blockEntries_congr {s t : List Char} (h : skipLines s = skipLines t) (fuel column : Nat) :
    blockEntries fuel column s = blockEntries fuel column t := by
  cases fuel with
  | zero => rw [blockEntries, blockEntries]
  | succ fuel => rw [blockEntries, blockEntries, h]

theorem blockEntries_ends (h : Ends column after rest) (fuel : Nat) :
    blockEntries (fuel + 1) column after = .ok ([], rest) := by
  have hstop : (rest.isEmpty || decide (indentOf rest < column)) = true := by
    rcases h.outside with rfl | hlt
    · rfl
    · rw [decide_eq_true hlt, Bool.or_true]
  simp only [blockEntries, h.skips, bind, Except.bind, hstop, if_true]
  rfl

/-- Reads the value of a key. -/
def keyValue (fuel column : Nat) (s : List Char) : Except YamlError (Yaml × List Char) :=
  let room : Room := { least := column + 1, flat := true }
  if endsLine s then belowNode fuel room (afterLine s)
  else inlineNode fuel room (s.dropWhile isGap)

theorem blockEntry_eq {fuel : Nat} {key value : Yaml} {s r : List Char}
    (hvalue : keyValue fuel column s = .ok (value, r))
    (hentries : blockEntries fuel column r = .ok (entries, rest)) :
    blockEntry (fuel + 1) column key s = .ok ((key, value) :: entries, rest) := by
  unfold keyValue at hvalue
  unfold blockEntry
  dsimp only at hvalue ⊢
  split
  · rename_i h
    rw [if_pos h] at hvalue
    simp only [hvalue, bind, Except.bind, hentries]
    rfl
  · rename_i h
    rw [if_neg h] at hvalue
    simp only [hvalue, bind, Except.bind, hentries]
    rfl

theorem keyValue_inline {text : List Char} {node : Yaml} (h : Inline text node) {r : List Char}
    (hr : skipLines after = .ok r) (hcolumn : r = [] ∨ indentOf r ≤ column)
    (fuel : Nat) :
    ∃ rest, keyValue (fuel + 1) column (' ' :: text ++ '\n' :: after) = .ok (node, rest) ∧
      skipLines rest = .ok r := by
  obtain ⟨rest, hread, hskip⟩ := h.read hr hcolumn fuel true
  refine ⟨rest, ?_, hskip⟩
  obtain ⟨c, w, rfl, hspace, hhash⟩ := h.start
  obtain ⟨hgap, hbreak⟩ := isSpace_eq_false_iff.mp hspace
  have hdrop : (' ' :: (c :: w) ++ '\n' :: after).dropWhile isGap = c :: w ++ '\n' :: after := by
    have hblank : isGap ' ' = true := rfl
    rw [List.cons_append, List.dropWhile_cons_of_pos hblank, List.cons_append,
      List.dropWhile_cons_of_neg (by rw [hgap]; decide)]
  have hends : endsLine (' ' :: (c :: w) ++ '\n' :: after) = false := by
    rw [endsLine, hdrop]
    simp [hbreak, hhash]
  rw [keyValue, hends, hdrop]
  exact hread

/-- A mapping below its key, when its lines are read as its entries. -/
theorem keyValue_nested {deeper : Nat} (hdeeper : column < deeper) {key more : List Char}
    (hkey : IsWord key) (hmore : endsWord more = true)
    (hskip : skipLines after = .ok (keyLine deeper key more)) {fuel : Nat}
    {members : List (Yaml × Yaml)}
    (h : blockEntries (fuel + 1) deeper after = .ok (members, rest)) :
    keyValue (fuel + 2) column ('\n' :: after) = .ok (.mapping members, rest) := by
  show belowNode (fuel + 2) { least := column + 1, flat := true } after = _
  rw [belowNode_keyLine hkey hmore hskip (Nat.succ_le_of_lt hdeeper), h]
  rfl

/-- Lines that lay out entries are read as those entries. The induction is on the layout; each line
takes fuel for its key, its value and what is below it. -/
theorem Lays.blockEntries (h : Lays column lines entries) (hends : Ends column after rest)
    {fuel : Nat} (hfuel : 3 * lines.length < fuel) :
    blockEntries fuel column (joined lines ++ after) = .ok (entries, rest) := by
  induction h generalizing after rest fuel with
  | done =>
      obtain ⟨fuel, rfl⟩ := Nat.exists_eq_add_one.mpr (Nat.zero_lt_of_lt hfuel)
      exact blockEntries_ends hends fuel
  | note h _ ih =>
      rw [List.length_cons] at hfuel
      rw [joined_cons, List.append_assoc, List.cons_append,
        blockEntries_congr (skipLines_note h _)]
      exact ih hends (by omega)
  | entry hkey h more ih =>
      rw [List.length_cons] at hfuel
      obtain ⟨fuel, rfl⟩ : ∃ f, fuel = f + 3 := ⟨fuel - 3, by omega⟩
      obtain ⟨r, hr, hcolumn, hsettled⟩ := more.ends hends
      obtain ⟨r', hvalue, hr'⟩ := keyValue_inline h hr hcolumn fuel
      rw [blockEntries_keyLine hkey rfl (skipLines_joined hkey _ _ _)]
      refine blockEntry_eq hvalue ?_
      rw [blockEntries_congr (hr'.trans hr.symm)]
      exact ih hends (by omega)
  | @nested column deeper key inner lines members entries hkey hdeeper hne h more ihinner ih =>
      rw [List.length_cons, List.length_append] at hfuel
      obtain ⟨fuel, rfl⟩ : ∃ f, fuel = f + 4 := ⟨fuel - 4, by omega⟩
      obtain ⟨r, hr, hcolumn, hsettled⟩ := more.ends hends
      -- the lines of the inner mapping end where a line starts no further in than the outer one
      have hinner : Ends deeper (joined lines ++ after) r :=
        ⟨hr, hsettled, hcolumn.imp_right (Nat.lt_of_le_of_lt · hdeeper)⟩
      rw [blockEntries_keyLine hkey rfl (skipLines_joined hkey _ _ _), List.nil_append]
      have hmembers := ihinner hinner (show 3 * inner.length < fuel + 1 by omega)
      obtain ⟨key', more', hkey', hmore', hskip⟩ := (h.leads hinner).resolve_left fun h => hne h.1
      rw [joined_append, List.append_assoc]
      refine blockEntry_eq (keyValue_nested hdeeper hkey' hmore' hskip hmembers) ?_
      rw [blockEntries_congr (hsettled.trans hr.symm)]
      exact ih hends (by omega)

end Reading

/-! ## Documents -/

/-- A line of printable characters that is no marker. -/
structure IsLine (line : List Char) : Prop where
  printable : ∀ c ∈ line, Text.isPrintable c = true
  not_marker : line.head? ≠ some '-' ∧ line.head? ≠ some '.'

theorem IsLine.indented {s : List Char} (h : IsLine s) (column : Nat) :
    IsLine (indented column s) := by
  constructor
  · intro c hc
    rcases List.mem_append.mp hc with hc | hc
    · rw [List.eq_of_mem_replicate hc]
      decide
    · exact h.printable c hc
  · -- at the first column the line starts as it did, and further in with a blank
    cases column with
    | zero => exact h.not_marker
    | succ column => exact ⟨nofun, nofun⟩

theorem IsNote.isLine {line : List Char} (h : IsNote line) : IsLine line := by
  obtain ⟨column, words, rfl, hwords, hprintable⟩ := h
  refine IsLine.indented ⟨hprintable, ?_⟩ column
  rcases hwords with rfl | hhash
  · exact ⟨by decide, by decide⟩
  · rw [hhash]
    exact ⟨by decide, by decide⟩

theorem isLine_keyLine {column : Nat} {key words : List Char} (hkey : IsWord key)
    (hwords : ∀ c ∈ words, Text.isPrintable c = true) : IsLine (keyLine column key words) := by
  refine IsLine.indented ⟨fun c hc => ?_, ?_⟩ column
  · rcases List.mem_append.mp hc with hc | hc
    · exact isPrintable_of_isWordChar (hkey.2 c hc)
    · rcases List.mem_cons.mp hc with rfl | hc
      · decide
      · exact hwords c hc
  · obtain ⟨c, w, rfl⟩ := List.exists_cons_of_ne_nil hkey.1
    have hc := hkey.2 c List.mem_cons_self
    exact ⟨fun h => ne_of_isWordChar hc (by decide) (Option.some.inj h),
      fun h => ne_of_isWordChar hc (by decide) (Option.some.inj h)⟩

/-- What lays out entries is lines that a document may hold. -/
theorem Lays.isLine {column : Nat} {lines : List (List Char)} {entries : List (Yaml × Yaml)}
    (h : Lays column lines entries) : ∀ line ∈ lines, IsLine line := by
  induction h with
  | done => exact fun line hline => absurd hline List.not_mem_nil
  | note h _ ih =>
      intro line hline
      rcases List.mem_cons.mp hline with rfl | hline
      · exact h.isLine
      · exact ih line hline
  | entry hkey h _ ih =>
      intro line hline
      rcases List.mem_cons.mp hline with rfl | hline
      · refine isLine_keyLine hkey fun c hc => ?_
        rcases List.mem_cons.mp hc with rfl | hc
        · decide
        · exact h.printable c hc
      · exact ih line hline
  | nested hkey _ _ _ _ ihinner ih =>
      intro line hline
      rcases List.mem_cons.mp hline with rfl | hline
      · exact isLine_keyLine hkey fun c hc => absurd hc List.not_mem_nil
      · rcases List.mem_append.mp hline with hline | hline
        · exact ihinner line hline
        · exact ih line hline

theorem mem_joined {lines : List (List Char)} {c : Char} (h : c ∈ joined lines) :
    c = '\n' ∨ ∃ line ∈ lines, c ∈ line := by
  obtain ⟨line, hline, hc⟩ := List.mem_flatMap.mp h
  rcases List.mem_append.mp hc with hc | hc
  · exact .inr ⟨line, hline, hc⟩
  · exact .inl (List.mem_singleton.mp hc)

theorem isAllowed_of_isPrintable {c : Char} (h : Text.isPrintable c = true) :
    isAllowed c = true := by
  have hlow : c.toNat ≠ 0xFFFE := Text.ne_of_isPrintable h _ (by decide)
  have hhigh : c.toNat ≠ 0xFFFF := Text.ne_of_isPrintable h _ (by decide)
  unfold isAllowed
  rcases Text.range_of_isPrintable h with hrange | ⟨hrange, -⟩
  · simp [hrange.1, hrange.2]
  · simp [hrange, hlow, hhigh]

theorem unifyBreaks_eq_self {s : List Char} (h : ∀ c ∈ s, c ≠ '\r' ∧ c.toNat ≠ 0x85) :
    unifyBreaks s = s := by
  fun_induction unifyBreaks s with
  | case1 => rfl
  | case2 rest ih => exact absurd rfl (h '\r' List.mem_cons_self).1
  | case3 c rest _ ih =>
      obtain ⟨hreturn, hnext⟩ := h c List.mem_cons_self
      rw [if_neg (by simp [hreturn, hnext]), ih fun d hd => h d (List.mem_cons_of_mem c hd)]

theorem beforeMarker_line {line : List Char} (h : ∀ c ∈ line, isBreak c = false)
    (rest : List Char) :
    beforeMarker false (line ++ '\n' :: rest) = line ++ '\n' :: beforeMarker true rest := by
  induction line with
  | nil => rfl
  | cons c line ih =>
      rw [List.cons_append, beforeMarker, h c List.mem_cons_self,
        ih fun d hd => h d (List.mem_cons_of_mem c hd)]
      rfl

theorem isMarker_of_ne {mark c : Char} (h : c ≠ mark) (rest : List Char) :
    isMarker mark (c :: rest) = false := by
  have htake : ((c :: rest).take 3 == [mark, mark, mark]) = false := by
    rw [beq_eq_false_iff_ne, List.take_succ_cons]
    exact fun heq => h (List.cons.inj heq).1
  rw [isMarker, htake, Bool.false_and]

section Document

variable {lines : List (List Char)} (h : ∀ line ∈ lines, IsLine line)
include h

theorem isAllowed_of_mem_joined {c : Char} (hc : c ∈ joined lines) : isAllowed c = true := by
  rcases mem_joined hc with rfl | ⟨line, hline, hc⟩
  · decide
  · exact isAllowed_of_isPrintable ((h line hline).printable c hc)

theorem unifyBreaks_joined : unifyBreaks (joined lines) = joined lines := by
  refine unifyBreaks_eq_self fun c hc => ?_
  rcases mem_joined hc with rfl | ⟨line, hline, hc⟩
  · decide
  · have hprintable := (h line hline).printable c hc
    refine ⟨?_, ?_⟩
    · rintro rfl
      exact absurd hprintable (by decide)
    · rcases Text.range_of_isPrintable hprintable with hrange | ⟨hrange, -⟩
      · omega
      · omega

theorem dropByteOrder_joined : dropByteOrder (joined lines) = joined lines := by
  cases hs : joined lines with
  | nil => rfl
  | cons c rest =>
      have hne : c.toNat ≠ 0xFEFF := by
        rcases mem_joined (hs ▸ List.mem_cons_self) with rfl | ⟨line, hline, hc⟩
        · decide
        · exact Text.ne_of_isPrintable ((h line hline).printable c hc) _ (by decide)
      rw [dropByteOrder, if_neg hne]

theorem beforeMarker_joined : beforeMarker true (joined lines) = joined lines := by
  induction lines with
  | nil => rfl
  | cons line lines ih =>
      have hline := h line List.mem_cons_self
      have hbreaks : ∀ c ∈ line, isBreak c = false := fun c hc =>
        not_break_of_isPrintable (hline.printable c hc)
      have hmore := ih fun l hl => h l (List.mem_cons_of_mem line hl)
      rw [joined_cons]
      cases line with
      | nil =>
          rw [List.nil_append, beforeMarker, isMarker_of_ne (by decide),
            isMarker_of_ne (by decide)]
          exact congrArg ('\n' :: ·) hmore
      | cons c line =>
          -- only a line that starts with a dash or a point may be a marker
          have hdash : c ≠ '-' := fun hc => hline.not_marker.1 (congrArg some hc)
          have hpoint : c ≠ '.' := fun hc => hline.not_marker.2 (congrArg some hc)
          rw [List.cons_append, beforeMarker, isMarker_of_ne hdash, isMarker_of_ne hpoint,
            hbreaks c List.mem_cons_self,
            beforeMarker_line (fun d hd => hbreaks d (List.mem_cons_of_mem c hd)), hmore]
          rfl

end Document

theorem length_le_joined (lines : List (List Char)) : lines.length ≤ (joined lines).length := by
  induction lines with
  | nil => exact Nat.le_refl 0
  | cons line lines ih =>
      rw [joined_cons, List.length_append, List.length_cons, List.length_cons]
      omega

/-- The lines of a mapping from its first entry on. -/
theorem Lays.first {column : Nat} {lines : List (List Char)} {entries : List (Yaml × Yaml)}
    (h : Lays column lines entries) (hne : entries ≠ []) :
    ∃ rest, rest <:+ lines ∧ Lays column rest entries ∧
      skipLines (joined lines) = .ok (joined rest) := by
  have hself {column : Nat} {key words : List Char} {lines : List (List Char)}
      (hkey : IsWord key) : skipLines (joined (keyLine column key words :: lines)) =
        .ok (joined (keyLine column key words :: lines)) := by
    have hjoined : joined (keyLine column key words :: lines) =
        keyLine column key (words ++ '\n' :: joined lines) := by
      simp [joined_cons, keyLine, indented]
    rw [hjoined, skipLines_keyLine hkey]
  induction h with
  | done => exact absurd rfl hne
  | note h _ ih =>
      obtain ⟨rest, hsuffix, hlays, hskip⟩ := ih hne
      refine ⟨rest, hsuffix.trans (List.suffix_cons _ _), hlays, ?_⟩
      rw [joined_cons, skipLines_note h, hskip]
  | entry hkey h more => exact ⟨_, List.suffix_rfl, .entry hkey h more, hself hkey⟩
  | nested hkey hdeeper hmembers h more =>
      exact ⟨_, List.suffix_rfl, .nested hkey hdeeper hmembers h more, hself hkey⟩

theorem skipDirectives_keyLine {key more s : List Char} (hkey : IsWord key)
    (hskip : skipLines s = .ok (keyLine 0 key more)) (fuel : Nat) :
    skipDirectives (fuel + 1) false s = .ok (keyLine 0 key more) := by
  obtain ⟨c, w, rfl⟩ := List.exists_cons_of_ne_nil hkey.1
  have hc := hkey.2 c List.mem_cons_self
  simp only [skipDirectives, hskip, bind, Except.bind]
  split
  · rename_i heq
    cases heq
    cases hc
  · rfl

/-- A document that starts with a key is the node that stands below its start. -/
theorem readTree_keyLine {lines rest : List (List Char)} (hlines : ∀ line ∈ lines, IsLine line)
    (hsuffix : rest <:+ lines) {key more : List Char} (hkey : IsWord key)
    (hskip : skipLines (joined lines) = .ok (keyLine 0 key more))
    (hrest : joined rest = keyLine 0 key more) {text : String}
    (htext : text.toList = joined lines) :
    readTree text =
      (belowNode (4 * (joined rest).length + 16) { least := 0 } (joined rest)).map (·.1) := by
  have hall : (joined lines).all isAllowed = true :=
    List.all_eq_true.mpr fun c hc => isAllowed_of_mem_joined hlines hc
  -- a document that starts with a key has no marker in front
  have hmarker : isMarker '-' (joined rest) = false := by
    rw [hrest]
    obtain ⟨c, w, rfl⟩ := List.exists_cons_of_ne_nil hkey.1
    exact isMarker_of_ne (ne_of_isWordChar (hkey.2 c List.mem_cons_self) (by decide)) _
  have hbefore : beforeMarker true (joined rest) = joined rest :=
    beforeMarker_joined fun line hline => hlines line (hsuffix.subset hline)
  simp only [readTree, htext, dropByteOrder_joined hlines, hall, unifyBreaks_joined hlines,
    skipDirectives_keyLine hkey hskip, ← hrest, hmarker, hbefore, bind, Except.bind,
    Bool.not_true, Bool.false_eq_true, if_false, pure, Except.pure]
  cases belowNode (4 * (joined rest).length + 16) { least := 0 } (joined rest) with
  | error e => rfl
  | ok found => rfl

/-- A text of lines that lay out entries from the first column on is read as their mapping. -/
theorem read_of_lays {lines : List (List Char)} {entries : List (Yaml × Yaml)}
    (h : Lays 0 lines entries) (hne : entries ≠ []) {text : String}
    (htext : text.toList = joined lines) :
    Yaml.read text = .ok (.mapping entries) := by
  have hends : Ends 0 [] [] := ⟨rfl, rfl, .inl rfl⟩
  obtain ⟨rest, hsuffix, hlays, hskip⟩ := h.first hne
  obtain ⟨key, more, hkey, hmore, hfound⟩ := (h.leads hends).resolve_left fun h => hne h.1
  rw [List.append_nil] at hfound
  have hrest : joined rest = keyLine 0 key more := Except.ok.inj (hskip.symm.trans hfound)
  have hsettled : skipLines (joined rest) = .ok (keyLine 0 key more) := by
    rw [hrest]
    exact skipLines_keyLine hkey more
  have hentries : blockEntries (4 * (joined rest).length + 15) 0 (joined rest) =
      .ok (entries, []) := by
    have hlength := length_le_joined rest
    have hread := hlays.blockEntries hends
      (show 3 * rest.length < 4 * (joined rest).length + 15 by omega)
    rwa [List.append_nil] at hread
  have htree : readTree text = .ok (.mapping entries) := by
    rw [readTree_keyLine h.isLine hsuffix hkey hfound hrest htext,
      belowNode_keyLine hkey hmore hsettled (Nat.le_refl 0), hentries]
    rfl
  rw [Yaml.read, htree]
  simp only [bind, Except.bind, resolve, h.resolved]
  rfl

end ReviewQueue.Yaml
