import ReviewQueue.Proofs.Json.Reader

/-!
# The layout of printed texts

What is printed as an array or an object is one value, and its items or members are found again as
the texts they were printed from. Whatever text is taken apart, its pieces are values, and the
values of an object's members are lower than the object. A text is only read as a document, or as
a piece of one, when its value is no higher than `maxHeight`.

* `reads_arrayText`, `reads_objectText` — printed texts are values;
* `items?_arrayText`, `members?_objectText` — their pieces are found again;
* `isText_of_document`, `isText_of_items`, `isText_of_members` — the pieces of any text;
* `compact?_spec` — a compact form is a value that is its own compact form.
-/

namespace ReviewQueue.Json

variable {n : Nat}

/-! ## The first value -/

theorem readFirst_of_reads {blanks t x : List Char} (hblanks : Blanks blanks) (ht : Reads n t)
    (hn : n ≤ maxHeight) (hx : Stops x) :
    ∃ v, readFirst (blanks ++ (t ++ x)) = some (v, x) ∧ v.height ≤ n := by
  obtain ⟨v, hread, hheight⟩ := ht (fuelFor (t ++ x)) x (by simp [fuelFor]; omega) hx
  refine ⟨v, ?_, hheight⟩
  have hmax : v.height ≤ maxHeight := Nat.le_trans hheight hn
  simp only [readFirst, skipSpaces_append hblanks (ht.solid x), hread, Option.filter_some, hmax,
    decide_true, if_true]

theorem splitFirst_of_reads {blanks t x : List Char} (hblanks : Blanks blanks) (ht : Reads n t)
    (hn : n ≤ maxHeight) (hx : Stops x) : splitFirst (blanks ++ (t ++ x)) = some (t, x) := by
  obtain ⟨v, hread, -⟩ := readFirst_of_reads hblanks ht hn hx
  rw [splitFirst, hread, skipSpaces_append hblanks (ht.solid x)]
  simp only [Option.map_some, List.length_append, Nat.add_sub_cancel, List.take_left]

theorem splitFirst_self {t : List Char} (ht : Reads n t) (hn : n ≤ maxHeight) {x : List Char}
    (hx : Stops x) : splitFirst (t ++ x) = some (t, x) :=
  splitFirst_of_reads blanks_nil ht hn hx

theorem readFirst_spec {s rest : List Char} {v : Json} (h : readFirst s = some (v, rest)) :
    readValue (fuelFor (skipSpaces s)) (skipSpaces s) = some (v, rest) ∧
      v.height ≤ maxHeight := by
  obtain ⟨hread, hheight⟩ := Option.filter_eq_some_iff.mp h
  exact ⟨hread, of_decide_eq_true hheight⟩

/-- Whatever is split off where a value starts is that value. -/
theorem splitFirst_eq_of_reads {blanks t x : List Char} (hblanks : Blanks blanks) (ht : Reads n t)
    (hx : Stops x) {p : List Char × List Char} (h : splitFirst (blanks ++ (t ++ x)) = some p) :
    p = (t, x) := by
  obtain ⟨⟨w, rest⟩, hfirst, rfl⟩ := Option.map_eq_some_iff.mp h
  obtain ⟨hread, -⟩ := readFirst_spec hfirst
  obtain ⟨v, hread', -⟩ := ht (fuelFor (t ++ x)) x (by simp [fuelFor]; omega) hx
  simp only [skipSpaces_append hblanks (ht.solid x)] at hread ⊢
  obtain ⟨-, rfl⟩ := Prod.mk.inj (Option.some.inj (hread.symm.trans hread'))
  rw [List.length_append, Nat.add_sub_cancel, List.take_left]

theorem isText_of_splitFirst {s t rest : List Char} (h : splitFirst s = some (t, rest)) :
    IsText maxHeight t ∧ skipSpaces s = t ++ rest := by
  obtain ⟨⟨v, rest'⟩, hfirst, heq⟩ := Option.map_eq_some_iff.mp h
  obtain ⟨hread, hheight⟩ := readFirst_spec hfirst
  obtain ⟨p, hs, hp⟩ := isText_of_readValue hread
  obtain ⟨rfl, rfl⟩ := Prod.mk.inj heq
  rw [hs, List.length_append, Nat.add_sub_cancel, List.take_left]
  exact ⟨hp.mono hheight, rfl⟩

/-- A value with blanks behind it is the whole document. -/
theorem document?_append {t blanks : List Char} (ht : Reads n t) (hn : n ≤ maxHeight)
    (hblanks : Blanks blanks) : document? (t ++ blanks) = some t := by
  have hstops := stops_blanks hblanks stops_nil
  have hskip := skipSpaces_append hblanks (s := []) (by simp [Solid])
  rw [List.append_nil] at hstops hskip
  rw [document?, splitFirst_self ht hn hstops]
  simp [hskip]

theorem document?_eq_of_reads {t blanks t' : List Char} (ht : Reads n t) (hblanks : Blanks blanks)
    (h : document? (t ++ blanks) = some t') : t' = t := by
  have hstops := stops_blanks hblanks stops_nil
  rw [List.append_nil] at hstops
  unfold document? at h
  split at h
  case h_2 => cases h
  rename_i v rest hsplit
  obtain ⟨rfl, rfl⟩ := Prod.mk.inj (splitFirst_eq_of_reads blanks_nil ht hstops hsplit)
  split at h
  · exact (Option.some.inj h).symm
  · cases h

theorem isText_of_document {s t : List Char} (h : document? s = some t) : IsText maxHeight t := by
  unfold document? at h
  split at h
  · rename_i v rest hsplit
    split at h
    · obtain rfl := Option.some.inj h
      exact (isText_of_splitFirst hsplit).1
    · cases h
  · cases h

/-! ## Compact forms -/

theorem read_of_reads {t : List Char} (ht : Reads n t) (hn : n ≤ maxHeight) :
    ∃ v, read t = some v ∧ v.height ≤ n := by
  obtain ⟨v, hread, hheight⟩ := readFirst_of_reads blanks_nil ht hn stops_nil
  rw [List.nil_append, List.append_nil] at hread
  exact ⟨v, by rw [read, hread]; rfl, hheight⟩

/-- A compact form is a value that is its own compact form, and no higher than what was read. -/
theorem compact?_spec {s t : List Char} (h : compact? s = some t) :
    ∃ v, read s = some v ∧ v.height ≤ maxHeight ∧ Reads v.height t ∧ compact? t = some t := by
  unfold compact? at h
  split at h
  case isFalse => cases h
  rename_i hvalid
  obtain rfl := Option.some.inj h
  obtain ⟨v, hv⟩ := Option.isSome_iff_exists.mp hvalid
  -- the value stands between blanks, of which the compact form keeps nothing
  obtain ⟨hheight, hreads⟩ : v.height ≤ maxHeight ∧ Reads v.height (squeeze .outside s) := by
    unfold read at hv
    split at hv
    case h_2 => cases hv
    rename_i v' rest hfirst
    split at hv
    case isFalse => cases hv
    rename_i hblank
    obtain rfl := Option.some.inj hv
    obtain ⟨hread, hheight⟩ := readFirst_spec hfirst
    obtain ⟨blanks, hblanks, hs⟩ := exists_blanks s
    obtain ⟨p, q, hskip, -, hq, hsqueeze⟩ := taken_of_readValue hread
    obtain ⟨behind, hbehind, hrest⟩ := exists_blanks rest
    rw [List.isEmpty_iff.mp hblank, List.append_nil] at hrest
    rw [hrest] at hskip
    have hq' : squeeze .outside s = q := by
      have hbehind' : squeeze .outside behind = [] := by
        have hnil := Squeezes.blanks hbehind .nil
        rw [List.append_nil] at hnil
        exact hnil.eq
      rw [hs, hskip, ← List.append_assoc, Squeezes.blanks hblanks hsqueeze, hbehind',
        List.append_nil]
    exact ⟨hheight, hq' ▸ hq⟩
  obtain ⟨w, hw, -⟩ := read_of_reads hreads hheight
  refine ⟨v, hv, hheight, hreads, ?_⟩
  rw [compact?, isValid, hw, squeeze_squeeze]
  rfl

theorem compact?_of_isText {t : List Char} (ht : IsText n t) (hn : n ≤ maxHeight) :
    compact? t = some (squeeze .outside t) := by
  obtain ⟨v, hread, -⟩ := read_of_reads ht.reads hn
  rw [compact?, isValid, hread]
  rfl

/-! ## Arrays -/

theorem commaJoin_cons (a b : List Char) (rest : List (List Char)) :
    commaJoin (a :: b :: rest) = a ++ ',' :: commaJoin (b :: rest) := by
  simp [commaJoin, List.intercalate]

theorem commaJoin_one (a : List Char) : commaJoin [a] = a := by
  simp [commaJoin, List.intercalate]

theorem readsItems_commaJoin {items : List (List Char)} (hne : items ≠ [])
    (h : ∀ t ∈ items, Reads n t) : ReadsItems n (commaJoin items ++ [']']) := by
  induction items with
  | nil => exact absurd rfl hne
  | cons a rest ih =>
      have ha := h a List.mem_cons_self
      cases rest with
      | nil =>
          rw [commaJoin_one]
          exact (readsItems_last ha blanks_nil :)
      | cons b rest =>
          have hrest := ih (by simp) fun t ht => h t (List.mem_cons_of_mem _ ht)
          rw [commaJoin_cons, List.append_assoc]
          exact (readsItems_cons ha blanks_nil blanks_nil hrest :)

theorem reads_arrayText {items : List (List Char)} (h : ∀ t ∈ items, Reads n t) :
    Reads (n + 1) (arrayText items) := by
  cases items with
  | nil => exact reads_emptyArray n blanks_nil
  | cons a rest => exact (reads_array blanks_nil (readsItems_commaJoin (by simp) h) :)

theorem itemsFrom_commaJoin {items : List (List Char)} (hne : items ≠ [])
    (h : ∀ t ∈ items, Reads n t) (hn : n ≤ maxHeight) {fuel : Nat} (hfuel : items.length ≤ fuel) :
    itemsFrom fuel (commaJoin items ++ [']']) = some items := by
  induction items generalizing fuel with
  | nil => exact absurd rfl hne
  | cons a rest ih =>
      have ha := h a List.mem_cons_self
      obtain ⟨fuel, rfl⟩ : ∃ f, fuel = f + 1 := ⟨fuel - 1, by simp at hfuel; omega⟩
      cases rest with
      | nil =>
          rw [commaJoin_one, itemsFrom, splitFirst_self ha hn (stops_bracket [])]
          rfl
      | cons b rest =>
          have hall : ∀ t ∈ b :: rest, Reads n t := fun t ht => h t (List.mem_cons_of_mem _ ht)
          have hrest : itemsFrom fuel (commaJoin (b :: rest) ++ [']']) = some (b :: rest) :=
            ih (by simp) hall (by simpa using hfuel)
          -- the next item starts right behind the comma
          obtain ⟨c, tail, heq, hspace, -⟩ := (readsItems_commaJoin (by simp) hall).head []
          rw [List.append_nil] at heq
          rw [commaJoin_cons, List.append_assoc, List.cons_append, itemsFrom,
            splitFirst_self ha hn (stops_comma _)]
          simp only [skipSpaces_of_solid (solid_cons (by decide : isSpace ',' = false) _),
            skipSpaces_of_solid (heq ▸ solid_cons hspace tail :
              Solid (commaJoin (b :: rest) ++ [']'])), hrest, Option.map_some]

theorem length_le_commaJoin {items : List (List Char)} (h : ∀ t ∈ items, t ≠ []) :
    items.length ≤ (commaJoin items).length := by
  induction items with
  | nil => simp
  | cons a rest ih =>
      have ha := List.length_pos_iff.mpr (h a List.mem_cons_self)
      cases rest with
      | nil =>
          rw [commaJoin_one]
          simpa using Nat.succ_le_of_lt ha
      | cons b rest =>
          have hrest := ih fun t ht => h t (List.mem_cons_of_mem _ ht)
          rw [commaJoin_cons]
          simp only [List.length_cons, List.length_append] at hrest ⊢
          omega

theorem Reads.ne_nil {t : List Char} (h : Reads n t) : t ≠ [] := by
  rintro rfl
  obtain ⟨c, tail, heq, -⟩ := h.head []
  cases heq

theorem Reads.ofList_ne_empty {t : List Char} (h : Reads n t) : String.ofList t ≠ "" := by
  intro hempty
  rw [← String.toList_inj, String.toList_ofList] at hempty
  exact h.ne_nil hempty

/-- The items of a printed array are found again. -/
theorem items?_arrayText {items : List (List Char)} (h : ∀ t ∈ items, Reads n t)
    (hn : n ≤ maxHeight) : items? (arrayText items) = some items := by
  cases items with
  | nil => rfl
  | cons a rest =>
      obtain ⟨c, tail, heq, hspace, hbracket⟩ :=
        (readsItems_commaJoin (List.cons_ne_nil a rest) h).head []
      rw [List.append_nil] at heq
      -- no item is empty, so the length of the text is fuel enough for all of them
      have hlength := length_le_commaJoin fun t ht => (h t ht).ne_nil
      have hitems : itemsFrom (commaJoin (a :: rest) ++ [']']).length
          (commaJoin (a :: rest) ++ [']']) = some (a :: rest) :=
        itemsFrom_commaJoin (by simp) h hn (by simp at hlength ⊢; omega)
      rw [arrayText, List.cons_append, items?, skipSpaces_of_solid (heq ▸ solid_cons hspace tail)]
      rw [heq] at hitems ⊢
      split
      · rename_i heq'
        exact absurd (List.cons.inj heq').1 hbracket
      · exact hitems

theorem isText_of_itemsFrom {fuel : Nat} {s : List Char} {items : List (List Char)}
    (h : itemsFrom fuel s = some items) : ∀ t ∈ items, IsText maxHeight t := by
  induction fuel generalizing s items with
  | zero => cases h
  | succ fuel ih =>
      rw [itemsFrom] at h
      split at h
      · cases h
      · rename_i v rest hsplit
        have hv := (isText_of_splitFirst hsplit).1
        split at h
        · obtain ⟨items, hitems, rfl⟩ := Option.map_eq_some_iff.mp h
          intro t ht
          rcases List.mem_cons.mp ht with rfl | ht
          · exact hv
          · exact ih hitems t ht
        · obtain rfl := Option.some.inj h
          intro t ht
          obtain rfl := List.mem_singleton.mp ht
          exact hv
        · cases h

theorem isText_of_items {s : List Char} {items : List (List Char)} (h : items? s = some items) :
    ∀ t ∈ items, IsText maxHeight t := by
  unfold items? at h
  split at h
  · split at h
    · obtain rfl := Option.some.inj h
      simp
    · exact isText_of_itemsFrom h
  · cases h

/-! ## Objects -/

theorem readsPair_memberText {m : String × List Char} (h : Reads n m.2) :
    ReadsPair n (memberText m) := by
  have hpair := ReadsPair.mk (spells_escaped m.1.toList) blanks_nil blanks_nil h
  simpa [memberText, stringText] using hpair

theorem readsMembers_commaJoin {members : List (String × List Char)} (hne : members ≠ [])
    (h : ∀ m ∈ members, Reads n m.2) :
    ReadsMembers n (commaJoin (members.map memberText) ++ ['\x7d']) := by
  induction members with
  | nil => exact absurd rfl hne
  | cons a rest ih =>
      have ha := readsPair_memberText (h a List.mem_cons_self)
      cases rest with
      | nil =>
          rw [List.map_singleton, commaJoin_one]
          exact (readsMembers_last ha blanks_nil :)
      | cons b rest =>
          have hrest := ih (by simp) fun t ht => h t (List.mem_cons_of_mem _ ht)
          rw [List.map_cons] at hrest
          rw [List.map_cons, List.map_cons, commaJoin_cons, List.append_assoc, List.cons_append]
          exact (readsMembers_cons ha blanks_nil blanks_nil hrest :)

theorem reads_objectText {members : List (String × List Char)} (h : ∀ m ∈ members, Reads n m.2) :
    Reads (n + 1) (objectText members) := by
  cases members with
  | nil => exact reads_emptyObject n blanks_nil
  | cons a rest => exact (reads_object blanks_nil (readsMembers_commaJoin (by simp) h) :)

theorem membersFrom_commaJoin {members : List (String × List Char)} (hne : members ≠ [])
    (h : ∀ m ∈ members, Reads n m.2) (hn : n ≤ maxHeight) {fuel : Nat}
    (hfuel : members.length ≤ fuel) :
    membersFrom fuel (commaJoin (members.map memberText) ++ ['\x7d']) = some members := by
  induction members generalizing fuel with
  | nil => exact absurd rfl hne
  | cons a rest ih =>
      obtain ⟨key, t⟩ := a
      have ht : Reads n t := h (key, t) List.mem_cons_self
      obtain ⟨fuel, rfl⟩ : ∃ f, fuel = f + 1 := ⟨fuel - 1, by simp at hfuel; omega⟩
      -- a member as the reader meets it: a key in quotes, a colon and a value
      have hmember (x : List Char) : memberText (key, t) ++ x =
          '"' :: (key.toList.flatMap escapeChar ++ '"' :: (':' :: (t ++ x))) := by
        simp [memberText, stringText]
      cases rest with
      | nil =>
          rw [List.map_singleton, commaJoin_one, hmember, membersFrom, readString_stringText]
          simp only [skipSpaces_of_solid (solid_cons (by decide : isSpace ':' = false) _),
            splitFirst_self ht hn (stops_brace [])]
          rfl
      | cons b rest =>
          have hall : ∀ m ∈ b :: rest, Reads n m.2 := fun t ht => h t (List.mem_cons_of_mem _ ht)
          have hrest : membersFrom fuel (commaJoin ((b :: rest).map memberText) ++ ['\x7d']) =
              some (b :: rest) :=
            ih (by simp) hall (by simpa using hfuel)
          obtain ⟨tail, heq⟩ := (readsMembers_commaJoin (by simp) hall).head []
          rw [List.append_nil] at heq
          rw [List.map_cons, List.map_cons, commaJoin_cons, List.append_assoc, hmember,
            membersFrom, readString_stringText]
          rw [List.map_cons] at heq hrest
          simp only [skipSpaces_of_solid (solid_cons (by decide : isSpace ':' = false) _),
            List.cons_append, splitFirst_self ht hn (stops_comma _),
            skipSpaces_of_solid (solid_cons (by decide : isSpace ',' = false) _),
            skipSpaces_of_solid (heq ▸ solid_cons (by decide) tail :
              Solid (commaJoin (memberText b :: rest.map memberText) ++ ['\x7d'])), hrest,
            Option.map_some]

/-- The members of a printed object are found again. -/
theorem members?_objectText {members : List (String × List Char)}
    (h : ∀ m ∈ members, Reads n m.2) (hn : n ≤ maxHeight) :
    members? (objectText members) = some members := by
  cases members with
  | nil => rfl
  | cons a rest =>
      obtain ⟨tail, heq⟩ := (readsMembers_commaJoin (List.cons_ne_nil a rest) h).head []
      rw [List.append_nil] at heq
      have hne : ∀ t ∈ (a :: rest).map memberText, t ≠ [] := by
        intro t ht
        obtain ⟨m, -, rfl⟩ := List.mem_map.mp ht
        simp [memberText]
      have hlength := length_le_commaJoin hne
      have hmembers : membersFrom (commaJoin ((a :: rest).map memberText) ++ ['\x7d']).length
          (commaJoin ((a :: rest).map memberText) ++ ['\x7d']) = some (a :: rest) :=
        membersFrom_commaJoin (by simp) h hn (by simp at hlength ⊢; omega)
      rw [objectText, List.cons_append, members?,
        skipSpaces_of_solid (heq ▸ solid_cons (by decide) tail)]
      rw [heq] at hmembers ⊢
      split
      · rename_i heq'
        exact absurd (List.cons.inj heq').1 (by decide)
      · exact hmembers

theorem splitFirst_of_readValue {fuel : Nat} {s t rest rest' : List Char} {v : Json}
    (h : readValue fuel (skipSpaces s) = some (v, rest)) (hrest : Stops rest)
    (hsplit : splitFirst s = some (t, rest')) : rest' = rest ∧ IsText v.height t := by
  obtain ⟨p, q, hskip, hp, hq, hsqueeze⟩ := taken_of_readValue h
  obtain ⟨blanks, hblanks, hs⟩ := exists_blanks s
  rw [hs, hskip] at hsplit
  obtain ⟨rfl, rfl⟩ := Prod.mk.inj (splitFirst_eq_of_reads hblanks hp hrest hsplit)
  exact ⟨rfl, hp, hsqueeze.eq ▸ hq⟩

theorem stops_of_skipSpaces {c : Char} {s tail : List Char} (h : skipSpaces s = c :: tail)
    (hc : Stops (c :: tail)) : Stops s := by
  obtain ⟨blanks, hblanks, hs⟩ := exists_blanks s
  rw [hs, h]
  exact stops_blanks hblanks hc

/-- The values of members are no higher than the members that the reader takes there. -/
theorem isText_of_membersFrom {fuel fuel' : Nat} {s x : List Char}
    {members : List (String × List Char)} {ms : List (String × Json)}
    (h : membersFrom fuel s = some members) (hread : readMembers fuel' s = some (ms, x))
    (hheight : membersHeight ms ≤ n) : ∀ m ∈ members, IsText n m.2 := by
  -- both readers meet the same keys and values, one member after the other
  induction fuel generalizing s members fuel' ms with
  | zero => cases h
  | succ fuel ih =>
      rw [readMembers.eq_def] at hread
      split at hread
      · cases hread
      split at hread
      case h_2 => cases hread
      split at hread
      · cases hread
      rename_i hkey
      split at hread
      case h_2 => cases hread
      rename_i hcolon
      split at hread
      · cases hread
      rename_i v rest hvalue
      simp only [membersFrom, hkey, hcolon] at h
      split at h
      · cases h
      rename_i t rest' hsplit
      split at hread
      · rename_i tail hcomma
        obtain ⟨⟨ms, x'⟩, hmore, heq⟩ := Option.map_eq_some_iff.mp hread
        obtain ⟨rfl, rfl⟩ := Prod.mk.inj heq
        obtain ⟨rfl, ht⟩ := splitFirst_of_readValue hvalue
          (stops_of_skipSpaces hcomma (stops_comma tail)) hsplit
        obtain ⟨hv, hms⟩ := Nat.max_le.mp hheight
        simp only [hcomma] at h
        obtain ⟨members, hmembers, rfl⟩ := Option.map_eq_some_iff.mp h
        exact List.forall_mem_cons.mpr ⟨ht.mono hv, ih hmembers hmore hms⟩
      · rename_i tail hbrace
        obtain ⟨rfl, rfl⟩ := Prod.mk.inj (Option.some.inj hread)
        obtain ⟨rfl, ht⟩ := splitFirst_of_readValue hvalue
          (stops_of_skipSpaces hbrace (stops_brace tail)) hsplit
        obtain ⟨hv, -⟩ := Nat.max_le.mp hheight
        simp only [hbrace] at h
        obtain rfl := Option.some.inj h
        exact List.forall_mem_cons.mpr ⟨ht.mono hv, by simp⟩
      · cases hread

/-- The values of an object's members are lower than the object. -/
theorem isText_of_members {s : List Char} {members : List (String × List Char)}
    (hs : IsText (n + 1) s) (h : members? s = some members) : ∀ m ∈ members, IsText n m.2 := by
  obtain ⟨v, hread, hheight⟩ := hs.reads (fuelFor s) [] (by simp [fuelFor]) stops_nil
  rw [List.append_nil] at hread
  unfold members? at h
  split at h
  case h_2 => cases h
  rename_i rest
  rw [fuelFor, readValue] at hread
  split at h
  · obtain rfl := Option.some.inj h
    simp
  · rename_i hopen
    split at hread
    · rename_i hclosed
      exact absurd hclosed (hopen _)
    · obtain ⟨⟨ms, x⟩, hmembers, heq⟩ := Option.map_eq_some_iff.mp hread
      obtain ⟨rfl, rfl⟩ := Prod.mk.inj heq
      exact isText_of_membersFrom h hmembers (Nat.le_of_succ_le_succ hheight)

end ReviewQueue.Json
