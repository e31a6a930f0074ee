import Mathlib.Data.List.SplitBy
import ReviewQueue.Proofs.Yaml.Lines
import ReviewQueue.Yaml.Block

/-! # Scalars in the line of their key

What stands after a key, in the same line, is a quoted text, words in brackets, or an integer. Each
of them is read as what it was written for, and the reader goes on at the next line that says
something.

* `blockPlain_word` — a word without blanks is a plain scalar
* `IsWord`, `flowItems_words` — words in brackets are the items of a sequence
* `Inline` — a text that is read as a node after a key
* `inline_quoted`, `inline_words`, `inline_ofInt` — the three kinds of such texts
* `plainMeaning_ofInt` — the text of an integer stands for that integer
-/

namespace ReviewQueue.Yaml

/-! ## Plain scalars -/

theorem tabIndents_of_not_mem {gap : List Char} (h : '\t' ∉ gap) (least : Nat) :
    tabIndents least gap = false := by
  rw [tabIndents, List.any_eq_false]
  intro line hline htab
  rw [List.contains_iff_mem] at htab
  apply h
  -- the lines are parts of what is blank, so a tab in one of them is a tab in it
  rw [← List.flatten_splitBy (fun a _ => !isBreak a) gap]
  exact List.mem_flatten.mpr ⟨line, List.mem_of_mem_tail hline, List.mem_of_mem_take htab⟩

/-- After a plain scalar in a line of its own, the lines that say nothing are skipped. -/
theorem blockPlain_lineEnd {least : Nat} {rest r : List Char} (hr : skipLines rest = .ok r)
    (hleast : r = [] ∨ indentOf r < least) (fuel : Nat) (read : List Char) :
    ∃ rest', blockPlain (fuel + 1) least read ('\n' :: rest) = .ok (read.reverse, rest') ∧
      skipLines rest' = .ok r := by
  obtain ⟨htab, hstops⟩ := leads_of_skipLines hr
  have hspace : isSpace '\n' = true := by decide
  have hgap : ('\n' :: rest).takeWhile isSpace = '\n' :: rest.takeWhile isSpace :=
    List.takeWhile_cons_of_pos hspace
  have hafter : ('\n' :: rest).dropWhile isSpace = rest.dropWhile isSpace :=
    List.dropWhile_cons_of_pos hspace
  have hmargin : ((('\n' :: rest.takeWhile isSpace).reverse.takeWhile (!isBreak ·)).reverse) =
      margin (rest.takeWhile isSpace) := margin_append_break (by decide) [] _
  have htabs : tabIndents least ('\n' :: rest.takeWhile isSpace) = false := by
    refine tabIndents_of_not_mem ?_ least
    rw [List.mem_cons]
    rintro (h | h)
    · exact absurd h (by decide)
    · exact htab h
  have hcolon : isColon ('\n' :: rest) = false := rfl
  have hbreak : isBreak '\n' = true := by decide
  simp only [blockPlain, hcolon, hspace, hgap, hafter, hmargin, htabs, List.any_cons, hbreak,
    Bool.true_or, Bool.not_true, Bool.false_eq_true, if_true, if_false]
  generalize margin (rest.takeWhile isSpace) = blanks at hstops ⊢
  generalize rest.dropWhile isSpace = after at hstops ⊢
  -- by what comes first behind the blanks
  cases hstops with
  | nothing => exact ⟨[], rfl, rfl⟩
  | note h => exact ⟨_, rfl, h⟩
  | @line column c w hc hblanks =>
      subst hblanks
      have hindent : indentOf (List.replicate column ' ' ++ c :: w) = column :=
        indentOf_indented hc.ne.1 column w
      -- the line is further out than the scalar, so it belongs to something else
      have hlt : (List.replicate column ' ').length < least := by
        rw [List.length_replicate, ← hindent]
        exact hleast.resolve_left (by simp)
      refine ⟨_, ?_, skipLines_start hc column w⟩
      split
      · rename_i heq
        cases heq
      · rename_i heq
        cases heq
        exact absurd rfl hc.2
      · rw [if_pos hlt]
        rfl

/-- A word in the rest of a line is read as a plain scalar. -/
theorem blockPlain_word {word : List Char} (hword : ∀ c ∈ word, isSpace c = false ∧ c ≠ ':')
    {least : Nat} {rest r : List Char} (hr : skipLines rest = .ok r)
    (hleast : r = [] ∨ indentOf r < least) {fuel : Nat} (hfuel : word.length < fuel)
    (read : List Char) :
    ∃ rest', blockPlain fuel least read (word ++ '\n' :: rest) = .ok (read.reverse ++ word, rest') ∧
      skipLines rest' = .ok r := by
  induction word generalizing fuel read with
  | nil =>
      obtain ⟨fuel, rfl⟩ := Nat.exists_eq_add_one.mpr (Nat.zero_lt_of_lt hfuel)
      rw [List.append_nil]
      exact blockPlain_lineEnd hr hleast fuel read
  | cons c word ih =>
      obtain ⟨fuel, rfl⟩ := Nat.exists_eq_add_one.mpr (Nat.zero_lt_of_lt hfuel)
      obtain ⟨hspace, hne⟩ := hword c List.mem_cons_self
      have hcolon : isColon (c :: (word ++ '\n' :: rest)) = false := by
        unfold isColon
        split
        · rename_i heq
          cases heq
          exact absurd rfl hne
        · rfl
      obtain ⟨rest', hread, hskip⟩ := ih (fun d hd => hword d (List.mem_cons_of_mem c hd))
        (by simpa using hfuel) (c :: read)
      refine ⟨rest', ?_, hskip⟩
      rw [List.cons_append, blockPlain, hcolon, hspace]
      simpa using hread

/-! ## Words -/

/-- A letter or an underscore. -/
def isWordChar (c : Char) : Bool :=
  (decide (65 ≤ c.toNat) && decide (c.toNat ≤ 90)) ||
    (decide (97 ≤ c.toNat) && decide (c.toNat ≤ 122)) || c == '_'

/-- A word of letters and underscores. -/
def IsWord (word : List Char) : Prop :=
  word ≠ [] ∧ ∀ c ∈ word, isWordChar c = true

instance (word : List Char) : Decidable (IsWord word) :=
  decidable_of_iff (word ≠ [] ∧ word.all isWordChar = true)
    (and_congr_right fun _ => List.all_eq_true)

theorem ne_of_isWordChar {c d : Char} (h : isWordChar c = true) (hd : isWordChar d = false) :
    c ≠ d := by
  rintro rfl
  rw [h] at hd
  cases hd

theorem not_mem_of_isWordChar {c : Char} (h : isWordChar c = true) {marks : List Char}
    (hmarks : marks.any isWordChar = false) : c ∉ marks := fun hmem => by
  rw [List.any_eq_false] at hmarks
  exact hmarks c hmem h

theorem isPrintable_of_isWordChar {c : Char} (h : isWordChar c = true) :
    Text.isPrintable c = true := by
  have hrange : 65 ≤ c.toNat ∧ c.toNat ≤ 122 := by
    simp only [isWordChar, Bool.or_eq_true, Bool.and_eq_true, decide_eq_true_eq,
      beq_iff_eq] at h
    rcases h with (h | h) | rfl
    · omega
    · omega
    · decide
  exact Text.isPrintable_of_range (by omega)

theorem isBreak_of_isWordChar {c : Char} (h : isWordChar c = true) : isBreak c = false :=
  not_break_of_isPrintable (isPrintable_of_isWordChar h)

theorem isSpace_of_isWordChar {c : Char} (h : isWordChar c = true) : isSpace c = false := by
  have hblank : c ≠ ' ' := ne_of_isWordChar h (by decide)
  have htab : c ≠ '\t' := ne_of_isWordChar h (by decide)
  simp [isSpace, isGap, hblank, htab, isBreak_of_isWordChar h]

theorem startsPlain_of_isWordChar {c : Char} (h : isWordChar c = true) (inFlow : Bool)
    (rest : List Char) : startsPlain inFlow (c :: rest) = true := by
  have hindicator : indicators.contains c = false := by
    rw [← Bool.not_eq_true, List.contains_iff_mem]
    exact not_mem_of_isWordChar h (by decide)
  simp only [startsPlain, isSpace_of_isWordChar h, hindicator]
  rfl

theorem endsFlowPlain_of_isWordChar {c : Char} (h : isWordChar c = true) (rest : List Char) :
    endsFlowPlain c rest = false := by
  have hcolon : (c == ':') = false := beq_false_of_ne (ne_of_isWordChar h (by decide))
  have hmark : (c == '?') = false := beq_false_of_ne (ne_of_isWordChar h (by decide))
  have hends : [',', '[', ']', '\x7b', '\x7d'].contains c = false := by
    rw [← Bool.not_eq_true, List.contains_iff_mem]
    exact not_mem_of_isWordChar h (by decide)
  rw [endsFlowPlain, hcolon, hmark, hends]
  rfl

/-- A word in brackets is read up to the mark that ends it. -/
theorem flowPlain_word {word : List Char} (hword : ∀ c ∈ word, isWordChar c = true) {d : Char}
    (hd : ∀ rest, endsFlowPlain d rest = true) {fuel : Nat} (hfuel : word.length < fuel)
    (read rest : List Char) :
    flowPlain fuel read (word ++ d :: rest) = (word.reverse ++ read, d :: rest) := by
  induction word generalizing fuel read with
  | nil =>
      obtain ⟨fuel, rfl⟩ := Nat.exists_eq_add_one.mpr (Nat.zero_lt_of_lt hfuel)
      rw [List.nil_append, flowPlain, hd]
      rfl
  | cons c word ih =>
      obtain ⟨fuel, rfl⟩ := Nat.exists_eq_add_one.mpr (Nat.zero_lt_of_lt hfuel)
      have hc := hword c List.mem_cons_self
      rw [List.cons_append, flowPlain, endsFlowPlain_of_isWordChar hc, isSpace_of_isWordChar hc]
      simp only [Bool.false_eq_true, if_false]
      rw [ih (fun e he => hword e (List.mem_cons_of_mem c he)) (by simpa using hfuel),
        List.reverse_cons, List.append_assoc, List.singleton_append]

/-! ## Flow nodes -/

theorem flowNode_quoted (s : String) (fuel : Nat) (rest : List Char) :
    flowNode (fuel + 1) ((Text.quoted s).toList ++ rest) = .ok (.scalar false "" s, rest) := by
  have hread := quotedScalar?_quoted s rest
  have hhead : (Text.quoted s).toList ++ rest =
      '"' :: (s.toList.flatMap Text.quoteChar ++ ['"'] ++ rest) := by
    rw [Text.quoted, String.toList_ofList]
    rfl
  rw [hhead] at hread ⊢
  simp only [flowNode, hread]
  show Except.ok (Yaml.scalar false "" (.ofList s.toList), rest) = _
  rw [String.ofList_toList]

theorem flowNode_word {word : List Char} (hword : IsWord word) {d : Char}
    (hd : ∀ rest, endsFlowPlain d rest = true) (fuel : Nat) (rest : List Char) :
    flowNode (fuel + 1) (word ++ d :: rest) =
      .ok (.scalar true "" (.ofList word), d :: rest) := by
  obtain ⟨hne, hchars⟩ := hword
  have hfuel : word.length < (word ++ d :: rest).length := by
    rw [List.length_append, List.length_cons]
    omega
  have hplain := flowPlain_word hchars hd hfuel [] rest
  obtain ⟨c, w, rfl⟩ := List.exists_cons_of_ne_nil hne
  have hc := hchars c List.mem_cons_self
  -- a letter is no quotation mark
  have hquoted : quotedScalar? (c :: (w ++ d :: rest)) = none := by
    unfold quotedScalar?
    split
    · rename_i heq
      cases heq
      cases hc
    · rename_i heq
      cases heq
      cases hc
    · rfl
  rw [List.cons_append] at hplain ⊢
  unfold flowNode
  split
  case h_6 =>
    rw [hquoted]
    simp only [startsPlain_of_isWordChar hc, if_true, hplain]
    simp
  all_goals
    rename_i heq
    cases heq
    cases hc

theorem skip_start {c : Char} (h : IsStart c) (rest : List Char) :
    skip (c :: rest) = c :: rest := by
  simp [skip, skipBlanks, h.1, h.2]

theorem skip_blank_start {c : Char} (h : IsStart c) (rest : List Char) :
    skip (' ' :: c :: rest) = c :: rest := by
  have hspace : isSpace ' ' = true := by decide
  simp [skip, skipBlanks, hspace, h.1, h.2]

theorem isStart_of_isWordChar {c : Char} (h : isWordChar c = true) : IsStart c :=
  ⟨isSpace_of_isWordChar h, ne_of_isWordChar h (by decide)⟩

/-- What follows the first item of a sequence. -/
def afterItem (fuel : Nat) (item : Yaml) (s : List Char) :
    Except YamlError (List Yaml × List Char) :=
  match s with
  | ',' :: rest => do
    let (items, rest) ← flowItems fuel (skip rest)
    return (item :: items, rest)
  | ']' :: rest => return ([item], rest)
  | _ => throw {}

theorem flowItems_word {word : List Char} (hword : IsWord word) {d : Char} (hd : d = ',' ∨ d = ']')
    (fuel : Nat) (rest : List Char) :
    flowItems (fuel + 2) (word ++ d :: rest) =
      afterItem (fuel + 1) (.scalar true "" (.ofList word)) (d :: rest) := by
  have hends : ∀ rest, endsFlowPlain d rest = true := by
    rcases hd with rfl | rfl
    · exact fun rest => rfl
    · exact fun rest => rfl
  have hskip : skip (d :: rest) = d :: rest := by
    rcases hd with rfl | rfl
    · exact skip_start (by decide) rest
    · exact skip_start (by decide) rest
  have hnode := flowNode_word hword hends fuel rest
  obtain ⟨c, w, rfl⟩ := List.exists_cons_of_ne_nil hword.1
  have hc := hword.2 c List.mem_cons_self
  rw [List.cons_append] at hnode ⊢
  unfold flowItems
  split
  case h_4 =>
    rw [hnode]
    simp only [bind, Except.bind, hskip]
    rcases hd with rfl | rfl
    all_goals rfl
  case h_2 heq => cases heq
  all_goals
    rename_i heq
    cases heq
    cases hc

theorem exists_intercalate_cons {word : List Char} (hword : IsWord word) (words : List (List Char))
    (rest : List Char) :
    ∃ c more, isWordChar c = true ∧ [',', ' '].intercalate (word :: words) ++ rest = c :: more := by
  obtain ⟨c, w, rfl⟩ := List.exists_cons_of_ne_nil hword.1
  have hc := hword.2 c List.mem_cons_self
  cases words with
  | nil => exact ⟨c, w ++ rest, hc, by rw [List.intercalate_singleton]; rfl⟩
  | cons v words => exact ⟨c, _, hc, by rw [List.intercalate_cons_cons]; rfl⟩

/-- Words with commas between them are read as items, up to the bracket. -/
theorem flowItems_words {words : List (List Char)} (h : ∀ w ∈ words, IsWord w) {fuel : Nat}
    (hfuel : words.length < fuel) (rest : List Char) :
    flowItems fuel ([',', ' '].intercalate words ++ ']' :: rest) =
      .ok (words.map fun w => .scalar true "" (.ofList w), rest) := by
  induction words generalizing fuel with
  | nil =>
      obtain ⟨fuel, rfl⟩ := Nat.exists_eq_add_one.mpr (Nat.zero_lt_of_lt hfuel)
      rfl
  | cons w words ih =>
      obtain ⟨fuel, rfl⟩ : ∃ f, fuel = f + 2 :=
        ⟨fuel - 2, by rw [List.length_cons] at hfuel; omega⟩
      rw [List.length_cons] at hfuel
      have hw := h w List.mem_cons_self
      have hrest : ∀ v ∈ words, IsWord v := fun v hv => h v (List.mem_cons_of_mem w hv)
      cases words with
      | nil =>
          rw [List.intercalate_singleton, flowItems_word hw (.inr rfl)]
          rfl
      | cons v words =>
          have hmore := ih hrest (show (v :: words).length < fuel + 1 by omega)
          obtain ⟨c, more, hc, hcons⟩ :=
            exists_intercalate_cons (hrest v List.mem_cons_self) words (']' :: rest)
          have htext : [',', ' '].intercalate (w :: v :: words) ++ ']' :: rest =
              w ++ ',' :: ' ' :: c :: more := by
            rw [List.intercalate_cons_cons, List.append_assoc, List.append_assoc, hcons]
            rfl
          rw [htext, flowItems_word hw (.inl rfl)]
          simp only [afterItem, skip_blank_start (isStart_of_isWordChar hc)]
          rw [← hcons, hmore]
          rfl

theorem length_le_intercalate {words : List (List Char)} (h : ∀ w ∈ words, IsWord w) :
    words.length ≤ ([',', ' '].intercalate words).length := by
  induction words with
  | nil => exact Nat.zero_le _
  | cons w words ih =>
      have hpos := List.length_pos_iff.mpr (h w List.mem_cons_self).1
      cases words with
      | nil =>
          rw [List.intercalate_singleton]
          exact hpos
      | cons v words =>
          have := ih fun u hu => h u (List.mem_cons_of_mem w hu)
          rw [List.intercalate_cons_cons, List.length_append, List.length_append,
            List.length_cons]
          omega

/-- Words in brackets are read as a sequence. -/
theorem flowNode_words {words : List (List Char)} (h : ∀ w ∈ words, IsWord w) {fuel : Nat}
    (hfuel : words.length < fuel) (rest : List Char) :
    flowNode (fuel + 1) ('[' :: ([',', ' '].intercalate words ++ ']' :: rest)) =
      .ok (.sequence (words.map fun w => .scalar true "" (.ofList w)), rest) := by
  have hskip : skip ([',', ' '].intercalate words ++ ']' :: rest) =
      [',', ' '].intercalate words ++ ']' :: rest := by
    -- neither the bracket nor a word is blank, so nothing is skipped
    cases words with
    | nil => exact skip_start (by decide) rest
    | cons w words =>
        obtain ⟨c, more, hc, hcons⟩ :=
          exists_intercalate_cons (h w List.mem_cons_self) words (']' :: rest)
        rw [hcons, skip_start (isStart_of_isWordChar hc)]
  simp only [flowNode, hskip, flowItems_words h hfuel]
  rfl

/-! ## Nodes in the line of their key -/

/-- A text that is read as a node after a key and its colon, up to the end of the line. -/
structure Inline (text : List Char) (node : Yaml) : Prop where
  start : ∃ c w, text = c :: w ∧ IsStart c
  printable : ∀ c ∈ text, Text.isPrintable c = true
  resolved (known : Anchors) : resolve known node = .ok (node, known)
  read {rest r : List Char} (hr : skipLines rest = .ok r) {column : Nat}
    (hcolumn : r = [] ∨ indentOf r ≤ column) (fuel : Nat) (flat : Bool) :
    ∃ rest', inlineNode (fuel + 1) { least := column + 1, flat } (text ++ '\n' :: rest) =
      .ok (node, rest') ∧ skipLines rest' = .ok r

theorem inlineNode_flow {c : Char} (hc : c = '"' ∨ c = '[') {w rest : List Char} {node : Yaml}
    (hnode : flowNode (w.length + 2) (c :: w) = .ok (node, '\n' :: rest)) (fuel column : Nat)
    (flat : Bool) :
    inlineNode (fuel + 1) { least := column + 1, flat } (c :: w) = .ok (node, rest) := by
  have hend : endLine ('\n' :: rest) = .ok rest := rfl
  rcases hc with rfl | rfl
  · simp [inlineNode, property?, startsPlain, indicators, isSpace, isGap, isBreak, hnode, hend,
      bind, Except.bind, pure, Except.pure]
  · simp [inlineNode, property?, startsPlain, indicators, isSpace, isGap, isBreak, hnode, hend,
      bind, Except.bind, pure, Except.pure]

/-- A quoted text is a text. -/
theorem inline_quoted (s : String) :
    Inline (Text.quoted s).toList (.scalar false "" s) where
  start := ⟨'"', s.toList.flatMap Text.quoteChar ++ ['"'], by
    rw [Text.quoted, String.toList_ofList]; rfl, by decide⟩
  printable _ hc := Text.isPrintable_of_mem_quoted hc
  resolved _ := rfl
  read := by
    intro rest r hr column _ fuel flat
    have hhead : ∃ w, (Text.quoted s).toList ++ '\n' :: rest = '"' :: w := by
      rw [Text.quoted, String.toList_ofList]
      exact ⟨_, rfl⟩
    obtain ⟨w, hw⟩ := hhead
    refine ⟨rest, ?_, hr⟩
    have hnode := flowNode_quoted s (w.length + 1) ('\n' :: rest)
    rw [hw] at hnode ⊢
    exact inlineNode_flow (.inl rfl) hnode fuel column flat

theorem resolveItems_plain (words : List (List Char)) (known : Anchors) :
    resolveItems known (words.map fun w => .scalar true "" (.ofList w)) =
      .ok (words.map fun w => .scalar true "" (.ofList w), known) := by
  induction words with
  | nil => rfl
  | cons w words ih =>
      rw [List.map_cons, resolveItems, resolve]
      simp only [bind, Except.bind, ih]
      rfl

theorem isPrintable_of_mem_words {words : List (List Char)} (h : ∀ w ∈ words, IsWord w) :
    ∀ c ∈ '[' :: ([',', ' '].intercalate words ++ [']']), Text.isPrintable c = true := by
  have hsep : ∀ c ∈ [',', ' '], Text.isPrintable c = true := List.all_eq_true.mp (by decide)
  have hwords : ∀ c ∈ [',', ' '].intercalate words, Text.isPrintable c = true := by
    induction words with
    | nil => exact fun c hc => absurd hc List.not_mem_nil
    | cons w words ih =>
        have hw : ∀ c ∈ w, Text.isPrintable c = true := fun c hc =>
          isPrintable_of_isWordChar ((h w List.mem_cons_self).2 c hc)
        have hmore := ih fun v hv => h v (List.mem_cons_of_mem w hv)
        cases words with
        | nil =>
            rw [List.intercalate_singleton]
            exact hw
        | cons v words =>
            rw [List.intercalate_cons_cons]
            exact List.forall_mem_append.mpr ⟨List.forall_mem_append.mpr ⟨hw, hsep⟩, hmore⟩
  have hclose : ∀ c ∈ [']'], Text.isPrintable c = true := List.all_eq_true.mp (by decide)
  exact List.forall_mem_cons.mpr ⟨by decide, List.forall_mem_append.mpr ⟨hwords, hclose⟩⟩

/-- Words in brackets are a sequence of plain scalars. -/
theorem inline_words {words : List (List Char)} (h : ∀ w ∈ words, IsWord w) :
    Inline ('[' :: ([',', ' '].intercalate words ++ [']']))
      (.sequence (words.map fun w => .scalar true "" (.ofList w))) where
  start := ⟨'[', _, rfl, by decide⟩
  printable := isPrintable_of_mem_words h
  resolved known := by
    rw [resolve, resolveItems_plain]
    rfl
  read := by
    intro rest r hr column _ fuel flat
    refine ⟨rest, ?_, hr⟩
    have hlength := length_le_intercalate h
    rw [List.cons_append, List.append_assoc]
    refine inlineNode_flow (.inr rfl) (flowNode_words h ?_ _) fuel column flat
    rw [List.length_append]
    omega

theorem ne_of_startsPlain {c : Char} {w : List Char} (h : startsPlain false (c :: w) = true) :
    isSpace c = false ∧ c ∉ ['#', '&', '!', '|', '>'] := by
  constructor
  · rw [← Bool.not_eq_true]
    intro hspace
    rw [startsPlain, if_pos hspace] at h
    cases h
  · intro hmem
    have hfalse : startsPlain false (c :: w) = false := by
      simp only [List.mem_cons, List.not_mem_nil, or_false] at hmem
      rcases hmem with rfl | rfl | rfl | rfl | rfl
      all_goals rfl
    rw [hfalse] at h
    cases h

theorem inlineNode_plain {s : List Char} (h : startsPlain false s = true) (fuel : Nat)
    (room : Room) :
    inlineNode (fuel + 1) room s = (do
      let (text, rest) ← blockPlain (s.length + 1) room.least [] s
      return (.scalar true "" (.ofList text), rest)) := by
  cases s with
  | nil => cases h
  | cons c w =>
      obtain ⟨-, hne⟩ := ne_of_startsPlain h
      simp only [List.mem_cons, List.not_mem_nil, or_false, not_or] at hne
      have hproperty : property? (c :: w) = none := by
        unfold property?
        split
        · rename_i heq
          cases heq
          exact absurd rfl hne.2.1
        · rename_i heq
          cases heq
          exact absurd rfl hne.2.2.1
        · rfl
      unfold inlineNode
      rw [hproperty]
      dsimp only
      split
      · rename_i heq
        cases heq
        exact absurd rfl hne.2.2.2.1
      · rename_i heq
        cases heq
        exact absurd rfl hne.2.2.2.2
      · rw [if_pos h]

/-- A plain scalar that starts as one may and holds neither blanks nor colons. -/
theorem inline_plain {word : List Char} (hstart : ∀ rest, startsPlain false (word ++ rest) = true)
    (hword : ∀ c ∈ word, isSpace c = false ∧ c ≠ ':') (hne : word ≠ [])
    (hprintable : ∀ c ∈ word, Text.isPrintable c = true) :
    Inline word (.scalar true "" (.ofList word)) where
  start := by
    obtain ⟨c, w, rfl⟩ := List.exists_cons_of_ne_nil hne
    obtain ⟨hspace, hmarks⟩ := ne_of_startsPlain (hstart [])
    exact ⟨c, w, rfl, hspace, fun h => hmarks (h ▸ List.mem_cons_self)⟩
  printable := hprintable
  resolved _ := rfl
  read := by
    intro rest r hr column hcolumn fuel flat
    have hfuel : word.length < (word ++ '\n' :: rest).length + 1 := by
      rw [List.length_append, List.length_cons]
      omega
    obtain ⟨rest', hread, hskip⟩ :=
      blockPlain_word hword hr (hcolumn.imp_right Nat.lt_succ_of_le) hfuel []
    refine ⟨rest', ?_, hskip⟩
    rw [inlineNode_plain (hstart _), hread]
    rfl

/-! ## Integers -/

theorem isPrintable_of_isDigit {c : Char} (h : Text.isDigit c = true) :
    Text.isPrintable c = true := by
  simp only [Text.isDigit, Bool.and_eq_true, decide_eq_true_eq] at h
  exact Text.isPrintable_of_range (by omega)

theorem isSpace_of_isDigit {c : Char} (h : Text.isDigit c = true) : isSpace c = false := by
  have hne {d : Char} (hd : Text.isDigit d = false) : c ≠ d := by
    rintro rfl
    rw [h] at hd
    cases hd
  have hblank : c ≠ ' ' := hne (by decide)
  have htab : c ≠ '\t' := hne (by decide)
  simp [isSpace, isGap, hblank, htab, not_break_of_isPrintable (isPrintable_of_isDigit h)]

theorem startsPlain_of_isDigit {c : Char} (h : Text.isDigit c = true) (inFlow : Bool)
    (rest : List Char) : startsPlain inFlow (c :: rest) = true := by
  have hindicator : indicators.contains c = false := by
    have hno : indicators.any Text.isDigit = false := by decide
    rw [← Bool.not_eq_true, List.contains_iff_mem]
    intro hmem
    exact List.any_eq_false.mp hno c hmem h
  simp only [startsPlain, isSpace_of_isDigit h, hindicator]
  rfl

theorem exists_decimal_cons (n : Nat) :
    ∃ c rest, Text.decimal n = c :: rest ∧ Text.isDigit c = true := by
  obtain ⟨c, rest, h⟩ := List.exists_cons_of_ne_nil (Text.decimal_ne_nil n)
  exact ⟨c, rest, h, Text.isDigit_of_mem_decimal (n := n) (by simp [h])⟩

theorem startsPlain_numeral (n : Int) (rest : List Char) :
    startsPlain false (Text.numeral n ++ rest) = true := by
  obtain ⟨c, w, hdecimal, hc⟩ := exists_decimal_cons n.natAbs
  unfold Text.numeral
  rw [hdecimal]
  split
  · show startsPlain false ('-' :: c :: (w ++ rest)) = true
    have hword : endsWord (c :: (w ++ rest)) = false := isSpace_of_isDigit hc
    simp [startsPlain, indicators, isSpace, isGap, isBreak, hword]
  · exact startsPlain_of_isDigit hc false _

/-- The text of an integer stands plainly after its key. -/
theorem inline_ofInt (n : Int) :
    Inline (Text.ofInt n).toList (.scalar true "" (Text.ofInt n)) := by
  rw [Text.ofInt, String.toList_ofList]
  refine inline_plain (startsPlain_numeral n) (fun c hc => ?_) (Text.numeral_ne_nil n)
    fun c hc => ?_
  · rcases Text.mem_numeral hc with rfl | hdigit
    · decide
    · refine ⟨isSpace_of_isDigit hdigit, ?_⟩
      rintro rfl
      cases hdigit
  · rcases Text.mem_numeral hc with rfl | hdigit
    · decide
    · exact isPrintable_of_isDigit hdigit

/-- Whether a word holds nothing but what a numeral may hold. -/
def isNumeric (word : List Char) : Bool :=
  !word.isEmpty && word.all fun c => c == '-' || Text.isDigit c

theorem isNumeric_numeral (n : Int) : isNumeric (Text.numeral n) = true := by
  rw [isNumeric, List.isEmpty_eq_false_iff.mpr (Text.numeral_ne_nil n), Bool.not_false,
    Bool.true_and, List.all_eq_true]
  intro c hc
  rw [Bool.or_eq_true, beq_iff_eq]
  exact Text.mem_numeral hc

/-- None of the words that stand for something else is a numeral. -/
theorem not_contains_of_isNumeric {text : String} (h : isNumeric text.toList = true)
    {words : List String} (hwords : words.any (isNumeric ·.toList) = false) :
    words.contains text = false := by
  rw [← Bool.not_eq_true, List.contains_iff_mem]
  intro hmem
  exact List.any_eq_false.mp hwords text hmem h

theorem startsNumber_numeral (n : Int) : startsNumber (Text.numeral n) = true := by
  obtain ⟨c, w, hdecimal, hc⟩ := exists_decimal_cons n.natAbs
  unfold Text.numeral
  split
  · rfl
  · rw [hdecimal, startsNumber, hc]
    rfl

theorem number?_numeral {n : Int} (h : fitsWord n = true) :
    number? (Text.numeral n) = some (.int n) := by
  -- a numeral has no other character than digits and a minus
  have hne {c d : Char} (hc : c ∈ Text.numeral n) (hminus : d ≠ '-')
      (hd : Text.isDigit d = false) : c ≠ d := by
    rintro rfl
    rcases Text.mem_numeral hc with hc | hc
    · exact hminus hc
    · rw [hc] at hd
      cases hd
  have hpoint : (Text.numeral n).head? ≠ some '.' := fun hhead =>
    hne (List.mem_of_mem_head? hhead) (by decide) (by decide) rfl
  have hfilter : (Text.numeral n).filter (· != '_') = Text.numeral n :=
    List.filter_eq_self.mpr fun c hc => bne_iff_ne.mpr (hne hc (by decide) (by decide))
  simp only [number?, if_neg hpoint, hfilter, Literal.read?_numeral h]

/-- The text of an integer that fits a word stands for that integer. -/
theorem plainMeaning_ofInt {n : Int} (h : fitsWord n = true) :
    plainMeaning (Text.ofInt n) = .int n := by
  have hnumeric : isNumeric (Text.ofInt n).toList = true := by
    rw [Text.ofInt, String.toList_ofList]
    exact isNumeric_numeral n
  have hword {words : List String} (hwords : words.any (isNumeric ·.toList) = false) :
      words.contains (Text.ofInt n) = false := not_contains_of_isNumeric hnumeric hwords
  rw [plainMeaning, hword (by decide), hword (by decide), hword (by decide), hword (by decide),
    hword (by decide), Text.ofInt, String.toList_ofList, startsNumber_numeral,
    number?_numeral h]
  rfl

end ReviewQueue.Yaml
