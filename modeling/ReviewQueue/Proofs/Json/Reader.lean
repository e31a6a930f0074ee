import ReviewQueue.Proofs.Json.Spelling

/-!
# Texts that are one value

A text is a value when the reader takes all of it from the front of whatever stops it; a bound on
how high the value is goes with it. What the reader takes is such a text, and so is its compact
form, which is no higher and in which nothing is left to drop.

* `reads_number`, `reads_string`, `reads_array`, `reads_object` — how such texts are made;
* `taken_of_readValue` — what the reader takes, and its compact form;
* `squeeze_squeeze` — a compact form is its own compact form.
-/

namespace ReviewQueue.Json

/-! ## Blanks -/

/-- Blanks between tokens. -/
def Blanks (s : List Char) : Prop := ∀ c ∈ s, isSpace c = true

/-- A text that starts with no blank. -/
def Solid (s : List Char) : Prop := ∀ c, s.head? = some c → isSpace c = false

theorem blanks_nil : Blanks [] := by
  intro c h
  cases h

theorem blanks_newline : Blanks ['\n'] := by
  intro c h
  obtain rfl := List.mem_singleton.mp h
  decide

theorem solid_cons {c : Char} (h : isSpace c = false) (s : List Char) : Solid (c :: s) := by
  intro d hd
  obtain rfl := Option.some.inj hd
  exact h

theorem skipSpaces_of_solid {s : List Char} (h : Solid s) : skipSpaces s = s := by
  cases s with
  | nil => rfl
  | cons c s => exact List.dropWhile_cons_of_neg (by simp [h c rfl])

theorem skipSpaces_append {blanks s : List Char} (hblanks : Blanks blanks) (hs : Solid s) :
    skipSpaces (blanks ++ s) = s := by
  rw [skipSpaces, List.dropWhile_append_of_pos hblanks]
  exact skipSpaces_of_solid hs

theorem exists_blanks (s : List Char) : ∃ blanks, Blanks blanks ∧ s = blanks ++ skipSpaces s :=
  ⟨s.takeWhile isSpace, fun _ h => List.all_eq_true.mp List.all_takeWhile _ h,
    List.takeWhile_append_dropWhile.symm⟩

/-! ## Values, items and members -/

/-- A text that the reader takes as one value of this height at most. -/
def Reads (n : Nat) (t : List Char) : Prop :=
  ∀ fuel x, 2 * t.length ≤ fuel → Stops x →
    ∃ v, readValue fuel (t ++ x) = some (v, x) ∧ v.height ≤ n

/-- A text that the reader takes as items of this height at most, with their closing bracket. -/
def ReadsItems (n : Nat) (t : List Char) : Prop :=
  ∀ fuel x, 2 * t.length ≤ fuel →
    ∃ vs, readItems fuel (t ++ x) = some (vs, x) ∧ itemsHeight vs ≤ n

/-- A text that the reader takes as members of this height at most, with their closing brace. -/
def ReadsMembers (n : Nat) (t : List Char) : Prop :=
  ∀ fuel x, 2 * t.length ≤ fuel →
    ∃ ms, readMembers fuel (t ++ x) = some (ms, x) ∧ membersHeight ms ≤ n

theorem height_le_itemsHeight (v : Json) (vs : List Json) :
    v.height ≤ itemsHeight (v :: vs) :=
  Nat.le_max_left _ _

theorem itemsHeight_le_cons (v : Json) (vs : List Json) : itemsHeight vs ≤ itemsHeight (v :: vs) :=
  Nat.le_max_right _ _

theorem height_le_membersHeight (key : String) (v : Json) (ms : List (String × Json)) :
    v.height ≤ membersHeight ((key, v) :: ms) :=
  Nat.le_max_left _ _

theorem membersHeight_le_cons (m : String × Json) (ms : List (String × Json)) :
    membersHeight ms ≤ membersHeight (m :: ms) :=
  Nat.le_max_right _ _

theorem Reads.mono {n m : Nat} (hle : n ≤ m) {t : List Char} (h : Reads n t) : Reads m t := by
  intro fuel x hfuel hx
  obtain ⟨v, hread, hheight⟩ := h fuel x hfuel hx
  exact ⟨v, hread, Nat.le_trans hheight hle⟩

theorem ReadsItems.mono {n m : Nat} (hle : n ≤ m) {t : List Char} (h : ReadsItems n t) :
    ReadsItems m t := by
  intro fuel x hfuel
  obtain ⟨vs, hread, hheight⟩ := h fuel x hfuel
  exact ⟨vs, hread, Nat.le_trans hheight hle⟩

theorem ReadsMembers.mono {n m : Nat} (hle : n ≤ m) {t : List Char} (h : ReadsMembers n t) :
    ReadsMembers m t := by
  intro fuel x hfuel
  obtain ⟨ms, hread, hheight⟩ := h fuel x hfuel
  exact ⟨ms, hread, Nat.le_trans hheight hle⟩

variable {n : Nat}

theorem readValue_number {c : Char} (hc : c = '-' ∨ Text.isDigit c = true) (fuel : Nat)
    (s : List Char) :
    readValue (fuel + 1) (c :: s) = (readNumber (c :: s)).map fun p => (.number p.1, p.2) := by
  -- a minus and a digit are none of the characters that the other values start with
  have hletter : ∀ d, d = 'n' ∨ d = 't' ∨ d = 'f' ∨ d = '"' ∨ d = '[' ∨ d = '\x7b' → c ≠ d := by
    rintro d hd rfl
    rcases hd with rfl | rfl | rfl | rfl | rfl | rfl <;> revert hc <;> decide
  rw [readValue]
  all_goals simp [hletter]

/-- A value starts with no blank and no closing bracket. -/
theorem head_of_readValue {fuel : Nat} {s rest : List Char} {v : Json}
    (h : readValue fuel s = some (v, rest)) :
    ∃ c tail, s = c :: tail ∧ isSpace c = false ∧ c ≠ ']' := by
  rw [readValue.eq_def] at h
  split at h
  · cases h
  case h_8 =>
    -- a number, whose first character is a minus or a digit
    obtain ⟨⟨spelling, rest'⟩, hread, -⟩ := Option.map_eq_some_iff.mp h
    obtain ⟨rfl, hnumber⟩ := isNumber_of_read hread
    obtain ⟨c, tail, rfl, hc⟩ := hnumber.head
    refine ⟨c, tail ++ rest', rfl, ?_⟩
    rcases hc with rfl | hc
    · decide
    · constructor
      · cases hspace : isSpace c with
        | false => rfl
        | true =>
            simp only [isSpace, Bool.or_eq_true, beq_iff_eq] at hspace
            rcases hspace with ((rfl | rfl) | rfl) | rfl <;> revert hc <;> decide
      · rintro rfl
        revert hc
        decide
  -- each of the other values starts with a mark or a letter of its own
  all_goals exact ⟨_, _, rfl, by decide, by decide⟩

theorem Reads.head {t : List Char} (h : Reads n t) (x : List Char) :
    ∃ c tail, t ++ x = c :: tail ∧ isSpace c = false ∧ c ≠ ']' := by
  obtain ⟨v, hread, -⟩ := h (2 * t.length) [] (Nat.le_refl _) stops_nil
  rw [List.append_nil] at hread
  obtain ⟨c, tail, rfl, hc⟩ := head_of_readValue hread
  exact ⟨c, tail ++ x, rfl, hc⟩

theorem Reads.solid {t : List Char} (h : Reads n t) (x : List Char) : Solid (t ++ x) := by
  obtain ⟨c, tail, heq, hspace, -⟩ := h.head x
  rw [heq]
  exact solid_cons hspace tail

theorem ReadsItems.head {t : List Char} (h : ReadsItems n t) (x : List Char) :
    ∃ c tail, t ++ x = c :: tail ∧ isSpace c = false ∧ c ≠ ']' := by
  obtain ⟨vs, hread, -⟩ := h (2 * t.length) [] (Nat.le_refl _)
  rw [List.append_nil] at hread
  rw [readItems.eq_def] at hread
  split at hread
  · cases hread
  · split at hread
    · cases hread
    · rename_i hvalue
      obtain ⟨c, tail, rfl, hc⟩ := head_of_readValue hvalue
      exact ⟨c, tail ++ x, rfl, hc⟩

theorem ReadsMembers.head {t : List Char} (h : ReadsMembers n t) (x : List Char) :
    ∃ tail, t ++ x = '"' :: tail := by
  obtain ⟨ms, hread, -⟩ := h (2 * t.length) [] (Nat.le_refl _)
  rw [List.append_nil] at hread
  rw [readMembers.eq_def] at hread
  split at hread
  · cases hread
  · split at hread
    · exact ⟨_, List.cons_append⟩
    · cases hread

/-! ## Making values -/

theorem reads_null (n : Nat) : Reads n nullText := by
  intro fuel x hfuel _
  obtain ⟨fuel, rfl⟩ : ∃ f, fuel = f + 1 := ⟨fuel - 1, by simp [nullText] at hfuel; omega⟩
  exact ⟨_, readValue.eq_2 _ _, Nat.zero_le n⟩

theorem reads_bool (n : Nat) (b : Bool) : Reads n (boolText b) := by
  intro fuel x hfuel _
  obtain ⟨fuel, rfl⟩ : ∃ f, fuel = f + 1 :=
    ⟨fuel - 1, by cases b <;> simp [boolText] at hfuel <;> omega⟩
  cases b with
  | true => exact ⟨_, readValue.eq_3 _ _, Nat.zero_le n⟩
  | false => exact ⟨_, readValue.eq_4 _ _, Nat.zero_le n⟩

theorem reads_number (n : Nat) {t : List Char} (h : IsNumber t) : Reads n t := by
  intro fuel x hfuel hx
  obtain ⟨c, tail, rfl, hc⟩ := h.head
  obtain ⟨fuel, rfl⟩ : ∃ f, fuel = f + 1 := ⟨fuel - 1, by simp at hfuel; omega⟩
  have hread := h.read hx
  rw [List.cons_append] at hread ⊢
  rw [readValue_number hc, hread]
  exact ⟨_, rfl, Nat.zero_le n⟩

theorem readString_of_spells {s : List Char} {codes : List Nat} (h : Spells s codes)
    (x : List Char) : readString (s ++ '"' :: x) = some (.ofList (charsOfCodes codes), x) := by
  rw [readString, h.read x]
  rfl

theorem reads_string (n : Nat) {s : List Char} {codes : List Nat} (h : Spells s codes) :
    Reads n ('"' :: (s ++ ['"'])) := by
  intro fuel x hfuel _
  obtain ⟨fuel, rfl⟩ : ∃ f, fuel = f + 1 := ⟨fuel - 1, by simp at hfuel; omega⟩
  rw [List.cons_append, List.append_assoc, List.singleton_append, readValue,
    readString_of_spells h]
  exact ⟨_, rfl, Nat.zero_le n⟩

theorem reads_stringText (n : Nat) (s : String) : Reads n (stringText s) :=
  reads_string n (spells_escaped s.toList)

theorem reads_emptyArray (n : Nat) {blanks : List Char} (hblanks : Blanks blanks) :
    Reads (n + 1) ('[' :: (blanks ++ [']'])) := by
  intro fuel x hfuel _
  obtain ⟨fuel, rfl⟩ : ∃ f, fuel = f + 1 := ⟨fuel - 1, by simp at hfuel; omega⟩
  rw [List.cons_append, List.append_assoc, List.singleton_append, readValue,
    skipSpaces_append hblanks (solid_cons (by decide) x)]
  exact ⟨_, rfl, by simp [height, itemsHeight]⟩

theorem reads_array {blanks t : List Char} (hblanks : Blanks blanks) (h : ReadsItems n t) :
    Reads (n + 1) ('[' :: (blanks ++ t)) := by
  intro fuel x hfuel _
  obtain ⟨fuel, rfl⟩ : ∃ f, fuel = f + 1 := ⟨fuel - 1, by simp at hfuel; omega⟩
  obtain ⟨c, tail, heq, hspace, hbracket⟩ := h.head x
  obtain ⟨vs, hread, hheight⟩ := h fuel x (by simp at hfuel; omega)
  rw [List.cons_append, List.append_assoc, readValue,
    skipSpaces_append hblanks (heq ▸ solid_cons hspace tail), heq]
  rw [heq] at hread
  -- the items do not start with the bracket that would close an empty array
  split
  · rename_i heq'
    exact absurd (List.cons.inj heq').1 hbracket
  · exact ⟨.array vs, by rw [hread]; rfl, by simpa [height] using hheight⟩

theorem reads_emptyObject (n : Nat) {blanks : List Char} (hblanks : Blanks blanks) :
    Reads (n + 1) ('\x7b' :: (blanks ++ ['\x7d'])) := by
  intro fuel x hfuel _
  obtain ⟨fuel, rfl⟩ : ∃ f, fuel = f + 1 := ⟨fuel - 1, by simp at hfuel; omega⟩
  rw [List.cons_append, List.append_assoc, List.singleton_append, readValue,
    skipSpaces_append hblanks (solid_cons (by decide) x)]
  exact ⟨_, rfl, by simp [height, membersHeight]⟩

theorem reads_object {blanks t : List Char} (hblanks : Blanks blanks) (h : ReadsMembers n t) :
    Reads (n + 1) ('\x7b' :: (blanks ++ t)) := by
  intro fuel x hfuel _
  obtain ⟨fuel, rfl⟩ : ∃ f, fuel = f + 1 := ⟨fuel - 1, by simp at hfuel; omega⟩
  obtain ⟨tail, heq⟩ := h.head x
  obtain ⟨ms, hread, hheight⟩ := h fuel x (by simp at hfuel; omega)
  rw [List.cons_append, List.append_assoc, readValue,
    skipSpaces_append hblanks (heq ▸ solid_cons (by decide) tail), heq]
  rw [heq] at hread
  -- nor do the members start with the brace that would close an empty object
  split
  · rename_i heq'
    exact absurd (List.cons.inj heq').1 (by decide)
  · exact ⟨.object ms, by rw [hread]; rfl, by simpa [height] using hheight⟩

theorem readsItems_last {t blanks : List Char} (h : Reads n t) (hblanks : Blanks blanks) :
    ReadsItems n (t ++ (blanks ++ [']'])) := by
  intro fuel x hfuel
  obtain ⟨fuel, rfl⟩ : ∃ f, fuel = f + 1 := ⟨fuel - 1, by simp at hfuel; omega⟩
  obtain ⟨v, hread, hheight⟩ := h fuel (blanks ++ ']' :: x) (by simp at hfuel; omega)
    (stops_blanks hblanks (stops_bracket x))
  simp only [List.append_assoc, List.singleton_append]
  rw [readItems, hread]
  simp only [skipSpaces_append hblanks (solid_cons (by decide : isSpace ']' = false) x)]
  exact ⟨_, rfl, by simpa [itemsHeight] using hheight⟩

theorem readsItems_cons {t before after rest : List Char} (h : Reads n t)
    (hbefore : Blanks before) (hafter : Blanks after) (hrest : ReadsItems n rest) :
    ReadsItems n (t ++ (before ++ ',' :: (after ++ rest))) := by
  intro fuel x hfuel
  obtain ⟨fuel, rfl⟩ : ∃ f, fuel = f + 1 := ⟨fuel - 1, by simp at hfuel; omega⟩
  obtain ⟨v, hread, hheight⟩ := h fuel (before ++ ',' :: (after ++ (rest ++ x)))
    (by simp at hfuel; omega) (stops_blanks hbefore (stops_comma _))
  obtain ⟨vs, hreadRest, hheightRest⟩ := hrest fuel x (by simp at hfuel; omega)
  obtain ⟨c, tail, heq, hspace, -⟩ := hrest.head x
  simp only [List.append_assoc, List.cons_append]
  rw [readItems, hread]
  simp only [skipSpaces_append hbefore (solid_cons (by decide : isSpace ',' = false) _),
    skipSpaces_append hafter (heq ▸ solid_cons hspace tail : Solid (rest ++ x)), hreadRest]
  exact ⟨v :: vs, rfl, Nat.max_le.mpr ⟨hheight, hheightRest⟩⟩

/-- A key, a colon and a value of this height at most. -/
inductive ReadsPair (n : Nat) : List Char → Prop
  | mk {key codes before after t} : Spells key codes → Blanks before → Blanks after → Reads n t →
      ReadsPair n ('"' :: (key ++ '"' :: (before ++ ':' :: (after ++ t))))

theorem ReadsPair.mono {m : Nat} (hle : n ≤ m) {t : List Char} (h : ReadsPair n t) :
    ReadsPair m t := by
  obtain ⟨hkey, hbefore, hafter, hvalue⟩ := h
  exact .mk hkey hbefore hafter (hvalue.mono hle)

/-- Reads what stands behind a member. -/
def readBehind (fuel : Nat) (key : String) (v : Json) (rest : List Char) :
    Option (List (String × Json) × List Char) :=
  match skipSpaces rest with
  | ',' :: rest => (readMembers fuel (skipSpaces rest)).map fun p => ((key, v) :: p.1, p.2)
  | '\x7d' :: rest => some ([(key, v)], rest)
  | _ => none

theorem ReadsPair.read {t : List Char} (h : ReadsPair n t) (fuel : Nat)
    (hfuel : 2 * t.length ≤ fuel) {x : List Char} (hx : Stops x) :
    ∃ key v, readMembers (fuel + 1) (t ++ x) = readBehind fuel key v x ∧ v.height ≤ n := by
  obtain ⟨hkey, hbefore, hafter, hvalue⟩ := h
  rename_i key codes before after t
  obtain ⟨v, hread, hheight⟩ := hvalue fuel x (by simp at hfuel; omega) hx
  refine ⟨.ofList (charsOfCodes codes), v, ?_, hheight⟩
  simp only [List.append_assoc, List.cons_append]
  rw [readMembers, readString_of_spells hkey]
  simp only [skipSpaces_append hbefore (solid_cons (by decide : isSpace ':' = false) _),
    skipSpaces_append hafter (hvalue.solid x), hread]
  rfl

theorem readsMembers_last {t blanks : List Char} (h : ReadsPair n t) (hblanks : Blanks blanks) :
    ReadsMembers n (t ++ (blanks ++ ['\x7d'])) := by
  intro fuel x hfuel
  obtain ⟨fuel, rfl⟩ : ∃ f, fuel = f + 1 := ⟨fuel - 1, by simp at hfuel; omega⟩
  obtain ⟨key, v, hread, hheight⟩ := h.read fuel (by simp at hfuel; omega)
    (stops_blanks hblanks (stops_brace x))
  simp only [List.append_assoc, List.singleton_append]
  rw [hread, readBehind, skipSpaces_append hblanks (solid_cons (by decide) x)]
  exact ⟨_, rfl, by simpa [membersHeight] using hheight⟩

theorem readsMembers_cons {t before after rest : List Char} (h : ReadsPair n t)
    (hbefore : Blanks before) (hafter : Blanks after) (hrest : ReadsMembers n rest) :
    ReadsMembers n (t ++ (before ++ ',' :: (after ++ rest))) := by
  intro fuel x hfuel
  obtain ⟨fuel, rfl⟩ : ∃ f, fuel = f + 1 := ⟨fuel - 1, by simp at hfuel; omega⟩
  obtain ⟨key, v, hread, hheight⟩ := h.read fuel (by simp at hfuel; omega)
    (stops_blanks hbefore (stops_comma (after ++ (rest ++ x))))
  obtain ⟨ms, hreadRest, hheightRest⟩ := hrest fuel x (by simp at hfuel; omega)
  obtain ⟨tail, heq⟩ := hrest.head x
  simp only [List.append_assoc, List.cons_append]
  rw [hread, readBehind, skipSpaces_append hbefore (solid_cons (by decide) _)]
  simp only [skipSpaces_append hafter (heq ▸ solid_cons (by decide) tail : Solid (rest ++ x)),
    hreadRest]
  exact ⟨(key, v) :: ms, rfl, Nat.max_le.mpr ⟨hheight, hheightRest⟩⟩

/-! ## Compact forms -/

/-- What becomes of a text when blanks are dropped, wherever it stands between tokens. -/
def Squeezes (p q : List Char) : Prop :=
  ∀ x, squeeze .outside (p ++ x) = q ++ squeeze .outside x

namespace Squeezes

theorem append {p q p' q' : List Char} (h : Squeezes p q) (h' : Squeezes p' q') :
    Squeezes (p ++ p') (q ++ q') := by
  intro x
  rw [List.append_assoc, h, h', List.append_assoc]

theorem cons {c : Char} {p q : List Char} (hspace : isSpace c = false) (hquote : c ≠ '"')
    (h : Squeezes p q) : Squeezes (c :: p) (c :: q) := by
  intro x
  simp only [List.cons_append, squeeze, hspace, Bool.false_eq_true, if_false, if_neg hquote, h x]

theorem blanks {p q blanks : List Char} (hblanks : Blanks blanks) (h : Squeezes p q) :
    Squeezes (blanks ++ p) q := by
  intro x
  induction blanks with
  | nil => exact h x
  | cons c blanks ih =>
      have hc := hblanks c List.mem_cons_self
      rw [← ih fun d hd => hblanks d (List.mem_cons_of_mem _ hd)]
      simp [squeeze, hc]

theorem nil : Squeezes [] [] := fun _ => rfl

/-- A text without blanks and quotes stays as it is. -/
theorem self {p : List Char} (h : ∀ c ∈ p, isSpace c = false ∧ c ≠ '"') : Squeezes p p := by
  induction p with
  | nil => exact nil
  | cons c p ih =>
      obtain ⟨hspace, hquote⟩ := h c List.mem_cons_self
      exact cons hspace hquote (ih fun d hd => h d (List.mem_cons_of_mem _ hd))

theorem string {s : List Char} {codes : List Nat} (hs : Spells s codes) :
    ∃ t, Spells t codes ∧
      ∀ {p q}, Squeezes p q → Squeezes ('"' :: (s ++ '"' :: p)) ('"' :: (t ++ '"' :: q)) := by
  obtain ⟨t, ht, hsqueeze⟩ := hs.squeeze
  refine ⟨t, ht, fun h x => ?_⟩
  simp only [List.cons_append, List.append_assoc, squeeze, show isSpace '"' = false by decide,
    Bool.false_eq_true, if_false, if_true, hsqueeze, h x]

end Squeezes

theorem IsNumber.squeezes {t : List Char} (h : IsNumber t) : Squeezes t t := by
  refine .self fun c hc => ?_
  have hmem := h.mem hc
  constructor
  · cases hspace : isSpace c with
    | false => rfl
    | true =>
        simp only [isSpace, Bool.or_eq_true, beq_iff_eq] at hspace
        rcases hspace with ((rfl | rfl) | rfl) | rfl <;> revert hmem <;> decide
  · rintro rfl
    revert hmem
    decide

/-- A text is taken from the front of another, and its compact form is one of its kind. -/
def Taken (P : List Char → Prop) (s rest : List Char) : Prop :=
  ∃ p q, s = p ++ rest ∧ P p ∧ P q ∧ Squeezes p q

/-- What the reader takes with this much fuel. -/
structure Takes (fuel : Nat) : Prop where
  value {s v rest} : readValue fuel s = some (v, rest) → Taken (Reads v.height) s rest
  items {s vs rest} :
    readItems fuel s = some (vs, rest) → Taken (ReadsItems (itemsHeight vs)) s rest
  members {s ms rest} :
    readMembers fuel s = some (ms, rest) → Taken (ReadsMembers (membersHeight ms)) s rest

theorem taken_of_self {t rest : List Char} (h : Reads n t) (hself : Squeezes t t) :
    Taken (Reads n) (t ++ rest) rest :=
  ⟨t, t, rfl, h, h, hself⟩

theorem taken_value {fuel : Nat} (ih : Takes fuel) {s rest : List Char} {v : Json}
    (h : readValue (fuel + 1) s = some (v, rest)) : Taken (Reads v.height) s rest := by
  rw [readValue.eq_def] at h
  split at h
  · cases h
  case h_2 =>
    obtain ⟨rfl, rfl⟩ := Prod.mk.inj (Option.some.inj h)
    exact taken_of_self (reads_null _) (.self (by simp [nullText, isSpace]))
  case h_3 =>
    obtain ⟨rfl, rfl⟩ := Prod.mk.inj (Option.some.inj h)
    exact taken_of_self (reads_bool _ true) (.self (by simp [boolText, isSpace]))
  case h_4 =>
    obtain ⟨rfl, rfl⟩ := Prod.mk.inj (Option.some.inj h)
    exact taken_of_self (reads_bool _ false) (.self (by simp [boolText, isSpace]))
  case h_5 =>
    -- a string may be spelled in another way when it is compact, and is still a string
    obtain ⟨⟨text, rest'⟩, hread, heq⟩ := Option.map_eq_some_iff.mp h
    obtain ⟨rfl, rfl⟩ := Prod.mk.inj heq
    obtain ⟨⟨codes, rest⟩, hcodes, heq⟩ := Option.map_eq_some_iff.mp hread
    obtain ⟨rfl, rfl⟩ := Prod.mk.inj heq
    obtain ⟨body, rfl, hbody⟩ := spells_of_read hcodes
    obtain ⟨t, ht, hsqueeze⟩ := Squeezes.string hbody
    exact ⟨_, _, by simp, reads_string _ hbody, reads_string _ ht, hsqueeze .nil⟩
  case h_6 =>
    -- an array, which is empty or has items with less fuel
    rename_i fuel' tail heq
    obtain rfl := Nat.succ.inj heq
    obtain ⟨blanks, hblanks, htail⟩ := exists_blanks tail
    split at h
    · rename_i heq
      obtain ⟨rfl, rfl⟩ := Prod.mk.inj (Option.some.inj h)
      rw [heq] at htail
      refine ⟨'[' :: (blanks ++ [']']), _, by simp [htail], reads_emptyArray _ hblanks,
        reads_emptyArray _ blanks_nil, ?_⟩
      exact .cons (by decide) (by decide) (.blanks hblanks (.cons (by decide) (by decide) .nil))
    · obtain ⟨⟨vs, rest'⟩, hread, heq⟩ := Option.map_eq_some_iff.mp h
      obtain ⟨rfl, rfl⟩ := Prod.mk.inj heq
      obtain ⟨p, q, hskip, hp, hq, hsqueeze⟩ := ih.items hread
      rw [hskip] at htail
      refine ⟨'[' :: (blanks ++ p), _, by simp [htail], reads_array hblanks hp,
        reads_array blanks_nil hq, ?_⟩
      exact .cons (by decide) (by decide) (.blanks hblanks hsqueeze)
  case h_7 =>
    -- an object, in the same way
    rename_i fuel' tail heq
    obtain rfl := Nat.succ.inj heq
    obtain ⟨blanks, hblanks, htail⟩ := exists_blanks tail
    split at h
    · rename_i heq
      obtain ⟨rfl, rfl⟩ := Prod.mk.inj (Option.some.inj h)
      rw [heq] at htail
      refine ⟨'\x7b' :: (blanks ++ ['\x7d']), _, by simp [htail], reads_emptyObject _ hblanks,
        reads_emptyObject _ blanks_nil, ?_⟩
      exact .cons (by decide) (by decide) (.blanks hblanks (.cons (by decide) (by decide) .nil))
    · obtain ⟨⟨ms, rest'⟩, hread, heq⟩ := Option.map_eq_some_iff.mp h
      obtain ⟨rfl, rfl⟩ := Prod.mk.inj heq
      obtain ⟨p, q, hskip, hp, hq, hsqueeze⟩ := ih.members hread
      rw [hskip] at htail
      refine ⟨'\x7b' :: (blanks ++ p), _, by simp [htail], reads_object hblanks hp,
        reads_object blanks_nil hq, ?_⟩
      exact .cons (by decide) (by decide) (.blanks hblanks hsqueeze)
  case h_8 =>
    obtain ⟨⟨spelling, rest'⟩, hread, heq⟩ := Option.map_eq_some_iff.mp h
    obtain ⟨rfl, rfl⟩ := Prod.mk.inj heq
    obtain ⟨rfl, hnumber⟩ := isNumber_of_read hread
    exact taken_of_self (reads_number _ hnumber) hnumber.squeezes

theorem taken_items {fuel : Nat} (ih : Takes fuel) {s rest : List Char} {vs : List Json}
    (h : readItems (fuel + 1) s = some (vs, rest)) :
    Taken (ReadsItems (itemsHeight vs)) s rest := by
  rw [readItems] at h
  split at h
  · cases h
  · rename_i v behind hvalue
    obtain ⟨p, q, rfl, hp, hq, hsqueeze⟩ := ih.value hvalue
    obtain ⟨before, hbefore, hbehind⟩ := exists_blanks behind
    split at h
    · -- a comma, with more items behind it
      rename_i tail hskip
      obtain ⟨⟨vs, rest'⟩, hread, heq⟩ := Option.map_eq_some_iff.mp h
      obtain ⟨rfl, rfl⟩ := Prod.mk.inj heq
      obtain ⟨after, hafter, htail⟩ := exists_blanks tail
      obtain ⟨p', q', hrest, hp', hq', hsqueeze'⟩ := ih.items hread
      have hfirst := height_le_itemsHeight v vs
      have hothers := itemsHeight_le_cons v vs
      rw [hskip, htail, hrest] at hbehind
      refine ⟨p ++ (before ++ ',' :: (after ++ p')), q ++ ([] ++ ',' :: ([] ++ q')),
        by simp [hbehind], readsItems_cons (hp.mono hfirst) hbefore hafter (hp'.mono hothers),
        readsItems_cons (hq.mono hfirst) blanks_nil blanks_nil (hq'.mono hothers), ?_⟩
      exact hsqueeze.append (.blanks hbefore (.cons (by decide) (by decide)
        (.blanks hafter hsqueeze')))
    · -- the bracket behind the last item
      rename_i tail hskip
      obtain ⟨rfl, rfl⟩ := Prod.mk.inj (Option.some.inj h)
      rw [hskip] at hbehind
      have honly := height_le_itemsHeight v []
      refine ⟨p ++ (before ++ [']']), q ++ ([] ++ [']']), by simp [hbehind],
        readsItems_last (hp.mono honly) hbefore, readsItems_last (hq.mono honly) blanks_nil, ?_⟩
      exact hsqueeze.append (.blanks hbefore (.cons (by decide) (by decide) .nil))
    · cases h

theorem taken_members {fuel : Nat} (ih : Takes fuel) {s rest : List Char}
    {ms : List (String × Json)} (h : readMembers (fuel + 1) s = some (ms, rest)) :
    Taken (ReadsMembers (membersHeight ms)) s rest := by
  rw [readMembers.eq_def] at h
  split at h
  · cases h
  rename_i heq
  obtain rfl := Nat.succ.inj heq
  split at h
  case h_2 => cases h
  split at h
  · cases h
  rename_i hkey
  obtain ⟨⟨codes, behindKey⟩, hcodes, heq⟩ := Option.map_eq_some_iff.mp hkey
  obtain ⟨rfl, rfl⟩ := Prod.mk.inj heq
  obtain ⟨body, rfl, hbody⟩ := spells_of_read hcodes
  obtain ⟨body', hbody', hsqueezeKey⟩ := Squeezes.string hbody
  obtain ⟨before, hbefore, hbehindKey⟩ := exists_blanks behindKey
  split at h
  case h_2 => cases h
  rename_i tail hcolon
  obtain ⟨after, hafter, htail⟩ := exists_blanks tail
  split at h
  · cases h
  rename_i v behind hvalue
  obtain ⟨p, q, hp', hp, hq, hsqueeze⟩ := ih.value hvalue
  rw [hcolon, htail, hp'] at hbehindKey
  -- the member as it stands in the text, and as it stands in the compact form
  have hpair := ReadsPair.mk hbody hbefore hafter hp
  have hpair' := ReadsPair.mk hbody' blanks_nil blanks_nil hq
  have hsqueezePair : Squeezes ('"' :: (body ++ '"' :: (before ++ ':' :: (after ++ p))))
      ('"' :: (body' ++ '"' :: ([] ++ ':' :: ([] ++ q)))) :=
    hsqueezeKey (.blanks hbefore (.cons (by decide) (by decide) (.blanks hafter hsqueeze)))
  obtain ⟨ahead, hahead, hbehind⟩ := exists_blanks behind
  split at h
  · rename_i tail' hskip
    obtain ⟨⟨ms, rest'⟩, hread, heq⟩ := Option.map_eq_some_iff.mp h
    obtain ⟨rfl, rfl⟩ := Prod.mk.inj heq
    obtain ⟨next, hnext, htail'⟩ := exists_blanks tail'
    obtain ⟨p', q', hrest, hp', hq', hsqueeze'⟩ := ih.members hread
    rw [hskip, htail', hrest] at hbehind
    have hfirst := height_le_membersHeight (.ofList (charsOfCodes codes)) v ms
    have hothers := membersHeight_le_cons (.ofList (charsOfCodes codes), v) ms
    refine ⟨_, _, ?_, readsMembers_cons (hpair.mono hfirst) hahead hnext (hp'.mono hothers),
      readsMembers_cons (hpair'.mono hfirst) blanks_nil blanks_nil (hq'.mono hothers), ?_⟩
    · simp [hbehindKey, hbehind]
    · exact hsqueezePair.append (.blanks hahead (.cons (by decide) (by decide)
        (.blanks hnext hsqueeze')))
  · rename_i tail' hskip
    obtain ⟨rfl, rfl⟩ := Prod.mk.inj (Option.some.inj h)
    rw [hskip] at hbehind
    have honly := height_le_membersHeight (.ofList (charsOfCodes codes)) v []
    refine ⟨_, _, ?_, readsMembers_last (hpair.mono honly) hahead,
      readsMembers_last (hpair'.mono honly) blanks_nil, ?_⟩
    · simp [hbehindKey, hbehind]
    · exact hsqueezePair.append (.blanks hahead (.cons (by decide) (by decide) .nil))
  · cases h

theorem takes (fuel : Nat) : Takes fuel := by
  -- by the fuel, since what is inside a value is read with one less
  induction fuel with
  | zero =>
      refine ⟨fun h => ?_, fun h => ?_, fun h => ?_⟩
      · rw [readValue] at h
        cases h
      · rw [readItems] at h
        cases h
      · rw [readMembers] at h
        cases h
  | succ fuel ih => exact ⟨taken_value ih, taken_items ih, taken_members ih⟩

/-- **What the reader takes is a value, and its compact form is one too.** -/
theorem taken_of_readValue {fuel : Nat} {s rest : List Char} {v : Json}
    (h : readValue fuel s = some (v, rest)) : Taken (Reads v.height) s rest :=
  (takes fuel).value h

/-! ## Compact texts -/

/-- A text that is one value of this height at most, and whose compact form is one. -/
structure IsText (n : Nat) (t : List Char) : Prop where
  reads : Reads n t
  compact : Reads n (squeeze .outside t)

theorem IsText.mono {m : Nat} (hle : n ≤ m) {t : List Char} (h : IsText n t) : IsText m t :=
  ⟨h.reads.mono hle, h.compact.mono hle⟩

theorem Squeezes.eq {p q : List Char} (h : Squeezes p q) : squeeze .outside p = q := by
  have hq := h []
  rwa [List.append_nil, squeeze, List.append_nil] at hq

theorem isText_of_readValue {fuel : Nat} {s rest : List Char} {v : Json}
    (h : readValue fuel s = some (v, rest)) : ∃ t, s = t ++ rest ∧ IsText v.height t := by
  obtain ⟨p, q, hs, hp, hq, hsqueeze⟩ := taken_of_readValue h
  exact ⟨p, hs, hp, hsqueeze.eq ▸ hq⟩

theorem squeeze_escaped {c : Char} (h : IsMarkup c) (s : List Char) :
    squeeze .inside (escapeChar c ++ s) = escapeChar c ++ squeeze .inside s := by
  have hlt (m : Nat) : m % 16 < 16 := Nat.mod_lt m (by decide)
  have hdigit (m : Nat) := not_mark_of_hexValue? (hexValue?_hexDigit (hlt m))
  rw [escapeChar_of_isMarkup h, hex_four]
  simp only [List.cons_append, List.nil_append]
  rw [squeeze_hexEscape, squeeze_plain (hdigit _), squeeze_plain (hdigit _),
    squeeze_plain (hdigit _), squeeze_plain (hdigit _)]

/-- A compact form is its own compact form. -/
theorem squeeze_squeeze (place : Place) (s : List Char) :
    squeeze place (squeeze place s) = squeeze place s := by
  -- by where a character stands, and by what it is there
  fun_induction squeeze place s with
  | case1 => simp [squeeze]
  | case2 c s hspace ih => exact ih
  | case3 c s hspace ih => rw [squeeze, if_neg hspace, ih]
  | case4 s ih => rw [squeeze, if_pos rfl, ih]
  | case5 s hquote ih => rw [squeeze, if_neg hquote, if_pos rfl, ih]
  | case6 c s hquote hslash hmarkup ih => rw [squeeze_escaped hmarkup, ih]
  | case7 c s hquote hslash hmarkup ih => rw [squeeze_plain ⟨hquote, hslash, hmarkup⟩, ih]
  | case8 c s ih => rw [squeeze, ih]

end ReviewQueue.Json
