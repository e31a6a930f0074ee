import ReviewQueue.Proofs.Json.Number
import ReviewQueue.Json.Layout

/-!
# Strings in JSON texts

Between its quotes a string is a sequence of units: characters as they are, one-letter escapes and
escapes of four hexadecimal digits. Each unit spells one code.

* `spells_of_read`, `Spells.read` — the reader takes exactly these sequences;
* `Spells.squeeze` — the compact form of a sequence spells the same codes;
* `readString_stringText` — what is written as a string is read as that string.
-/

namespace ReviewQueue.Json

/-- What stands between the quotes of a string, and the codes that it spells. -/
inductive Spells : List Char → List Nat → Prop
  | nil : Spells [] []
  | plain {c s codes} : c ≠ '"' → c ≠ '\\' → 0x20 ≤ c.toNat → Spells s codes →
      Spells (c :: s) (c.toNat :: codes)
  | letter {e n s codes} : escapeValue? e = some n → Spells s codes →
      Spells ('\\' :: e :: s) (n :: codes)
  | hex {a b c d n s codes} : hex4? a b c d = some n → Spells s codes →
      Spells ('\\' :: 'u' :: a :: b :: c :: d :: s) (n :: codes)

theorem readCodes_plain {c : Char} (hquote : c ≠ '"') (hslash : c ≠ '\\') (hlow : 0x20 ≤ c.toNat)
    (s : List Char) : readCodes (c :: s) = consCode c.toNat (readCodes s) := by
  rw [readCodes, if_neg (by simp [hslash]; omega)]
  all_goals simp [hquote, hslash]

theorem readCodes_letter {e : Char} {n : Nat} (h : escapeValue? e = some n) (s : List Char) :
    readCodes ('\\' :: e :: s) = consCode n (readCodes s) := by
  have hu : e ≠ 'u' := by
    rintro rfl
    cases h
  rw [readCodes, h]
  · intro a b c d rest heq
    exact absurd heq hu

theorem Spells.read {s : List Char} {codes : List Nat} (h : Spells s codes) (x : List Char) :
    readCodes (s ++ '"' :: x) = some (codes, x) := by
  induction h with
  | nil => rfl
  | plain hquote hslash hlow _ ih =>
      rw [List.cons_append, readCodes_plain hquote hslash hlow, ih]
      rfl
  | letter he _ ih =>
      rw [List.cons_append, List.cons_append, readCodes_letter he, ih]
      rfl
  | hex hn _ ih =>
      simp only [List.cons_append]
      rw [readCodes, hn]
      simp only [ih]
      rfl

theorem spells_of_consCode {code : Nat} {tail rest : List Char} {codes : List Nat}
    (h : consCode code (readCodes tail) = some (codes, rest))
    (ih : ∀ {codes}, readCodes tail = some (codes, rest) →
      ∃ body, tail = body ++ '"' :: rest ∧ Spells body codes) :
    ∃ body codes', tail = body ++ '"' :: rest ∧ Spells body codes' ∧ codes = code :: codes' := by
  obtain ⟨⟨codes', rest'⟩, hread, heq⟩ := Option.map_eq_some_iff.mp h
  obtain ⟨rfl, rfl⟩ := Prod.mk.inj heq
  obtain ⟨body, htail, hbody⟩ := ih hread
  exact ⟨body, codes', htail, hbody, rfl⟩

/-- What the reader takes up to a closing quote is a sequence of units. -/
theorem spells_of_read {s rest : List Char} {codes : List Nat}
    (h : readCodes s = some (codes, rest)) :
    ∃ body, s = body ++ '"' :: rest ∧ Spells body codes := by
  fun_induction readCodes s generalizing codes with
  | case1 => cases h
  | case2 tail =>
      obtain ⟨rfl, rfl⟩ := Prod.mk.inj (Option.some.inj h)
      exact ⟨[], rfl, .nil⟩
  | case3 a b c d tail n hn ih =>
      obtain ⟨body, codes', rfl, hbody, rfl⟩ := spells_of_consCode h ih
      exact ⟨'\\' :: 'u' :: a :: b :: c :: d :: body, rfl, .hex hn hbody⟩
  | case4 => cases h
  | case5 e tail _ n hn ih =>
      obtain ⟨body, codes', rfl, hbody, rfl⟩ := spells_of_consCode h ih
      exact ⟨'\\' :: e :: body, rfl, .letter hn hbody⟩
  | case6 => cases h
  | case7 => cases h
  | case8 c tail hquote _ _ hplain ih =>
      obtain ⟨body, codes', rfl, hbody, rfl⟩ := spells_of_consCode h ih
      simp only [not_or] at hplain
      exact ⟨c :: body, rfl, .plain (by simpa using hquote) hplain.2 (by omega) hbody⟩

/-! ## Escaped characters -/

theorem hexValue?_hexDigit {d : Nat} (h : d < 16) : hexValue? (Text.hexDigit d) = some d := by
  have hall : ∀ d < 16, hexValue? (Text.hexDigit d) = some d := by decide
  exact hall d h

theorem hex_four (n : Nat) :
    Text.hex 4 n = [Text.hexDigit (n / 16 / 16 / 16 % 16), Text.hexDigit (n / 16 / 16 % 16),
      Text.hexDigit (n / 16 % 16), Text.hexDigit (n % 16)] := rfl

theorem hex4?_hex {n : Nat} (h : n < 65536) :
    hex4? (Text.hexDigit (n / 16 / 16 / 16 % 16)) (Text.hexDigit (n / 16 / 16 % 16))
      (Text.hexDigit (n / 16 % 16)) (Text.hexDigit (n % 16)) = some n := by
  have hlt (m : Nat) : m % 16 < 16 := Nat.mod_lt m (by decide)
  simp only [hex4?, hexValue?_hexDigit (hlt _), bind, Option.bind, pure, Option.some.injEq]
  omega

/-- An escaped character spells its own code. -/
theorem Spells.escapeChar (c : Char) {s : List Char} {codes : List Nat} (h : Spells s codes) :
    Spells (escapeChar c ++ s) (c.toNat :: codes) := by
  unfold Json.escapeChar
  split
  case h_8 n hquote hslash _ _ _ _ _ =>
    -- the last case: a character that has no escape of one letter
    split
    · rename_i hspecial
      rw [hex_four]
      exact .hex (hex4?_hex (by omega)) h
    · rename_i hplain
      refine .plain ?_ ?_ (by omega) h
      · rintro rfl
        exact hquote rfl
      · rintro rfl
        exact hslash rfl
  all_goals
    rename_i hcode
    rw [hcode]
    exact .letter rfl h

theorem spells_escaped (s : List Char) : Spells (s.flatMap escapeChar) (s.map Char.toNat) := by
  induction s with
  | nil => exact .nil
  | cons c s ih => exact ih.escapeChar c

theorem not_surrogate (c : Char) :
    isHighSurrogate c.toNat = false ∧ isLowSurrogate c.toNat = false := by
  have hvalid := c.valid
  simp only [isHighSurrogate, isLowSurrogate, Bool.and_eq_false_iff, decide_eq_false_iff_not]
  -- a character is a code point, and no code point is a surrogate
  have hrange : c.toNat < 0xD800 ∨ 0xDFFF < c.toNat := by
    rcases hvalid with h | ⟨h, -⟩
    · exact .inl h
    · exact .inr h
  omega

/-- The codes of a text make that text. -/
theorem charsOfCodes_toNat (s : List Char) : charsOfCodes (s.map Char.toNat) = s := by
  induction s with
  | nil => rfl
  | cons c s ih =>
      obtain ⟨hhigh, hlow⟩ := not_surrogate c
      cases s with
      | nil => simp [charsOfCodes, hhigh, hlow, Char.ofNat_toNat]
      | cons d s =>
          rw [List.map_cons] at ih
          simp [charsOfCodes, hhigh, hlow, Char.ofNat_toNat, ih]

/-- What is written as a string is read as that string. -/
theorem readString_stringText (s : String) (x : List Char) :
    readString (s.toList.flatMap escapeChar ++ '"' :: x) = some (s, x) := by
  rw [readString, (spells_escaped s.toList).read x, Option.map_some, charsOfCodes_toNat,
    String.ofList_toList]

/-! ## Compact strings -/

/-- The characters that stand for markup in a web page, or end a line in a script. -/
def IsMarkup (c : Char) : Prop :=
  c = '<' ∨ c = '>' ∨ c = '&' ∨ c.toNat = 0x2028 ∨ c.toNat = 0x2029

/-- A hexadecimal digit is no mark of any kind. -/
theorem not_mark_of_hexValue? {a : Char} {n : Nat} (h : hexValue? a = some n) :
    a ≠ '"' ∧ a ≠ '\\' ∧ ¬ IsMarkup a := by
  have hrange : 48 ≤ a.toNat ∧ a.toNat ≤ 57 ∨ 97 ≤ a.toNat ∧ a.toNat ≤ 102 ∨
      65 ≤ a.toNat ∧ a.toNat ≤ 70 := by
    unfold hexValue? at h
    simp only at h
    split at h
    · exact .inl ‹_›
    · split at h
      · exact .inr (.inl ‹_›)
      · split at h
        · exact .inr (.inr ‹_›)
        · cases h
  refine ⟨?_, ?_, ?_⟩
  · rintro rfl
    revert hrange
    decide
  · rintro rfl
    revert hrange
    decide
  · rintro (rfl | rfl | rfl | h | h)
    · revert hrange
      decide
    · revert hrange
      decide
    · revert hrange
      decide
    all_goals omega

theorem squeeze_plain {c : Char} (h : c ≠ '"' ∧ c ≠ '\\' ∧ ¬ IsMarkup c) (s : List Char) :
    squeeze .inside (c :: s) = c :: squeeze .inside s := by
  obtain ⟨hquote, hslash, hmarkup⟩ := h
  unfold IsMarkup at hmarkup
  rw [squeeze, if_neg hquote, if_neg hslash, if_neg hmarkup]

theorem squeeze_markup {c : Char} (hquote : c ≠ '"') (hslash : c ≠ '\\') (hmarkup : IsMarkup c)
    (s : List Char) : squeeze .inside (c :: s) = escapeChar c ++ squeeze .inside s := by
  unfold IsMarkup at hmarkup
  rw [squeeze, if_neg hquote, if_neg hslash, if_pos hmarkup]

theorem squeeze_hexEscape (s : List Char) :
    squeeze .inside ('\\' :: 'u' :: s) = '\\' :: 'u' :: squeeze .inside s := by
  simp [squeeze]

theorem escapeChar_of_isMarkup {c : Char} (h : IsMarkup c) :
    escapeChar c = '\\' :: 'u' :: Text.hex 4 c.toNat := by
  rcases h with rfl | rfl | rfl | h | h
  · rfl
  · rfl
  · rfl
  all_goals simp [escapeChar, h]

/-- The compact form of a string spells the same codes. -/
theorem Spells.squeeze {s : List Char} {codes : List Nat} (h : Spells s codes) :
    ∃ t, Spells t codes ∧
      ∀ x, Json.squeeze .inside (s ++ '"' :: x) = t ++ '"' :: Json.squeeze .outside x := by
  induction h with
  | nil => exact ⟨[], .nil, fun x => by simp [Json.squeeze]⟩
  | @plain c s codes hquote hslash hlow _ ih =>
      obtain ⟨t, ht, hsqueeze⟩ := ih
      by_cases hmarkup : IsMarkup c
      · -- markup becomes an escape of four digits, which spells the same code
        refine ⟨Json.escapeChar c ++ t, ht.escapeChar c, fun x => ?_⟩
        rw [List.cons_append, squeeze_markup hquote hslash hmarkup, hsqueeze, List.append_assoc]
      · refine ⟨c :: t, .plain hquote hslash hlow ht, fun x => ?_⟩
        rw [List.cons_append, squeeze_plain ⟨hquote, hslash, hmarkup⟩, hsqueeze, List.cons_append]
  | @letter e n s codes he _ ih =>
      obtain ⟨t, ht, hsqueeze⟩ := ih
      refine ⟨'\\' :: e :: t, .letter he ht, fun x => ?_⟩
      simp [Json.squeeze, hsqueeze]
  | @hex a b c d n s codes hn _ ih =>
      obtain ⟨t, ht, hsqueeze⟩ := ih
      refine ⟨'\\' :: 'u' :: a :: b :: c :: d :: t, .hex hn ht, fun x => ?_⟩
      simp only [hex4?, bind, Option.bind_eq_some_iff] at hn
      obtain ⟨_, ha, _, hb, _, hc, _, hd, -⟩ := hn
      simp only [List.cons_append]
      rw [squeeze_hexEscape, squeeze_plain (not_mark_of_hexValue? ha),
        squeeze_plain (not_mark_of_hexValue? hb), squeeze_plain (not_mark_of_hexValue? hc),
        squeeze_plain (not_mark_of_hexValue? hd), hsqueeze]

end ReviewQueue.Json
