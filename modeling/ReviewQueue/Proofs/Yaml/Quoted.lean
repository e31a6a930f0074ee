import ReviewQueue.Proofs.Number.Literal
import ReviewQueue.Text.Quoted
import ReviewQueue.Yaml.Flow

/-! # Quoted texts in a YAML document

Texts are quoted by one set of rules and read by another. Every escape that is written means the
same character to the reader, and what is written consists of printable characters, so that a quoted
text never leaves its line.

* `range_of_isPrintable` — what the printable characters leave out
* `quotedScalar?_quoted` — a quoted text is read as that text
* `isPrintable_of_mem_quoted` — a quoted text is printable
-/

namespace ReviewQueue.Text

/-! ## Printable characters -/

/-- The separators of lines and of paragraphs, the mark of the byte order, and the two code points
that no document may hold. -/
def unprintable : List Nat := [0x2028, 0x2029, 0xFEFF, 0xFFFE, 0xFFFF]

/-- Whether a range of code points lies above all controls and leaves out what is unprintable. -/
def isPlainRange (r : Nat × Nat) : Bool :=
  decide (0xA0 ≤ r.1) && unprintable.all fun n => decide (n < r.1) || decide (r.2 < n)

theorem printableRanges_plain : printableRanges.all isPlainRange = true := by decide +kernel

/-- A printable character lies in ASCII between the controls, or above all controls. -/
theorem range_of_isPrintable {c : Char} (h : isPrintable c = true) :
    (32 ≤ c.toNat ∧ c.toNat ≤ 126) ∨ (0xA0 ≤ c.toNat ∧ ∀ n ∈ unprintable, c.toNat ≠ n) := by
  unfold isPrintable at h
  dsimp only at h
  split at h
  · simp only [Bool.and_eq_true, decide_eq_true_eq] at h
    exact .inl h
  · obtain ⟨r, hmem, hr⟩ := List.any_eq_true.mp h
    have hplain := List.all_eq_true.mp printableRanges_plain r hmem
    simp only [isPlainRange, Bool.and_eq_true, List.all_eq_true, Bool.or_eq_true,
      decide_eq_true_eq] at hplain hr
    refine .inr ⟨by omega, fun n hn hc => ?_⟩
    have := hplain.2 n hn
    omega

theorem isPrintable_of_range {c : Char} (h : 32 ≤ c.toNat ∧ c.toNat ≤ 126) :
    isPrintable c = true := by
  unfold isPrintable
  simp [h.1, h.2, Nat.lt_of_le_of_lt h.2 (show 126 < 128 by decide)]

/-- What is unprintable is no printable character. -/
theorem ne_of_isPrintable {c : Char} (h : isPrintable c = true) :
    ∀ n ∈ unprintable, c.toNat ≠ n := by
  rcases range_of_isPrintable h with hrange | ⟨-, hne⟩
  · -- the unprintable ones are all beyond ASCII
    have hlow : ∀ n ∈ unprintable, 126 < n := by decide
    intro n hn hc
    have := hlow n hn
    omega
  · exact hne

theorem printable_ofList {l : List Char} (h : l.all isPrintable = true) :
    ∀ c ∈ (String.ofList l).toList, isPrintable c = true := by
  rw [String.toList_ofList]
  exact List.all_eq_true.mp h

theorem printable_append {a b : String} (ha : ∀ c ∈ a.toList, isPrintable c = true)
    (hb : ∀ c ∈ b.toList, isPrintable c = true) : ∀ c ∈ (a ++ b).toList, isPrintable c = true := by
  intro c hc
  rw [String.toList_append] at hc
  rcases List.mem_append.mp hc with hc | hc
  · exact ha c hc
  · exact hb c hc

theorem isPrintable_hexDigit {d : Nat} (h : d < 16) : isPrintable (hexDigit d) = true := by
  have hall : ∀ d < 16, isPrintable (hexDigit d) = true := by decide
  exact hall d h

theorem isPrintable_of_mem_hex {width n : Nat} {c : Char} (h : c ∈ hex width n) :
    isPrintable c = true := by
  induction width generalizing n with
  | zero => cases h
  | succ width ih =>
      rcases List.mem_append.mp h with h | h
      · exact ih h
      · rw [List.mem_singleton.mp h]
        exact isPrintable_hexDigit (Nat.mod_lt n (by decide))

theorem isPrintable_of_mem_quoteChar {c d : Char} (h : d ∈ quoteChar c) :
    isPrintable d = true := by
  have hescape {e : Char} (he : isPrintable e = true) (h : d ∈ ['\\', e]) :
      isPrintable d = true := by
    rcases List.mem_cons.mp h with rfl | h
    · decide
    · rw [List.mem_singleton.mp h]
      exact he
  have hhex {e : Char} {width n : Nat} (he : isPrintable e = true)
      (h : d ∈ '\\' :: e :: hex width n) : isPrintable d = true := by
    rcases List.mem_cons.mp h with rfl | h
    · decide
    · rcases List.mem_cons.mp h with rfl | h
      · exact he
      · exact isPrintable_of_mem_hex h
  unfold quoteChar at h
  split at h
  · exact hescape (by decide) h
  · split at h
    · exact hescape (by decide) h
    · split at h
      · rename_i hprintable
        rw [List.mem_singleton.mp h]
        exact hprintable
      · split at h
        case h_8 =>
          split at h
          · exact hhex (by decide) h
          · split at h
            · exact hhex (by decide) h
            · exact hhex (by decide) h
        all_goals exact hescape (by decide) h

/-- A quoted text is printable. -/
theorem isPrintable_of_mem_quoted {s : String} {c : Char} (h : c ∈ (quoted s).toList) :
    isPrintable c = true := by
  rw [quoted, String.toList_ofList] at h
  rcases List.mem_append.mp h with h | h
  · rcases List.mem_cons.mp h with rfl | h
    · decide
    · obtain ⟨d, -, hc⟩ := List.mem_flatMap.mp h
      exact isPrintable_of_mem_quoteChar hc
  · rw [List.mem_singleton.mp h]
    decide

theorem quoteChar_ne_nil (c : Char) : quoteChar c ≠ [] := by
  unfold quoteChar
  repeat' split
  all_goals exact List.cons_ne_nil _ _

end ReviewQueue.Text

namespace ReviewQueue.Yaml

open Text

theorem not_break_of_isPrintable {c : Char} (h : isPrintable c = true) : isBreak c = false := by
  have hnewline : c ≠ '\n' := by
    rintro rfl
    exact absurd h (by decide)
  simp only [isBreak, Bool.or_eq_false_iff, beq_eq_false_iff_ne]
  exact ⟨⟨hnewline, ne_of_isPrintable h _ (by decide)⟩, ne_of_isPrintable h _ (by decide)⟩

/-! ## Hexadecimal escapes -/

theorem hexChar?_hex {width : Nat} (hwidth : width ≠ 0) (c : Char) (h : c.toNat < 16 ^ width)
    (rest : List Char) : hexChar? width (hex width c.toNat ++ rest) = some (c, rest) := by
  have hlength : ¬ (hex width c.toNat ++ rest).length < width := by
    rw [List.length_append, Literal.length_hex]
    omega
  have htake : (hex width c.toNat ++ rest).take width = hex width c.toNat :=
    List.take_left' (Literal.length_hex width c.toNat)
  have hdrop : (hex width c.toNat ++ rest).drop width = rest :=
    List.drop_left' (Literal.length_hex width c.toNat)
  -- a character is never one of the values that the reader turns down
  have hvalid : ¬ ((0xD800 ≤ c.toNat ∧ c.toNat ≤ 0xDFFF) ∨ 0x10FFFF < c.toNat) := by
    rcases c.valid with hlow | ⟨hlow, hhigh⟩
    · have : c.toNat < 0xD800 := hlow
      omega
    · have : 0xDFFF < c.toNat := hlow
      have : c.toNat < 0x110000 := hhigh
      omega
  rw [hexChar?, if_neg hlength, htake, hdrop, Literal.digits?_hex hwidth h]
  simp [hvalid, Char.ofNat_toNat]

/-! ## Reading back -/

variable {c e : Char} {fuel : Nat} {read rest : List Char}

theorem doubleQuoted_plain (hquote : c ≠ '"') (hslash : c ≠ '\\') (hbreak : isBreak c = false) :
    doubleQuoted (fuel + 1) read (c :: rest) = doubleQuoted fuel (c :: read) rest := by
  simp [doubleQuoted, hquote, hslash, hbreak]

theorem doubleQuoted_letter (hbreak : isBreak e = false) (h : escaped? e = some c) :
    doubleQuoted (fuel + 1) read ('\\' :: e :: rest) = doubleQuoted fuel (c :: read) rest := by
  have hslash : isBreak '\\' = false := by decide
  simp [doubleQuoted, hslash, hbreak, h]

theorem doubleQuoted_hex {width : Nat} (hbreak : isBreak e = false) (hletter : escaped? e = none)
    (hwidth : escapeWidth? e = some width) (hpos : width ≠ 0) (hlt : c.toNat < 16 ^ width) :
    doubleQuoted (fuel + 1) read ('\\' :: e :: (hex width c.toNat ++ rest)) =
      doubleQuoted fuel (c :: read) rest := by
  have hslash : isBreak '\\' = false := by decide
  simp [doubleQuoted, hslash, hbreak, hletter, hwidth, hexChar?_hex hpos c hlt]

/-- One character as it stands between double quotes is read as that character. -/
theorem doubleQuoted_quoteChar (c : Char) (fuel : Nat) (read rest : List Char) :
    doubleQuoted (fuel + 1) read (quoteChar c ++ rest) = doubleQuoted fuel (c :: read) rest := by
  have hcode {n : Nat} (h : c.toNat = n) : c = Char.ofNat n := by rw [← h, Char.ofNat_toNat]
  unfold quoteChar
  split
  · rename_i hc
    subst hc
    exact doubleQuoted_letter (by decide) rfl
  · rename_i hquote
    split
    · rename_i hc
      subst hc
      exact doubleQuoted_letter (by decide) rfl
    · rename_i hslash
      split
      · rename_i hprintable
        exact doubleQuoted_plain hquote hslash (not_break_of_isPrintable hprintable)
      · split
        -- the last case: a character with no letter of its own, and as many digits as it needs
        case h_8 =>
          have hlt : c.toNat < 0x110000 := by
            rcases c.valid with h | ⟨-, h⟩
            · exact Nat.lt_trans h (by decide)
            · exact h
          split
          · rename_i hsmall
            exact doubleQuoted_hex (by decide) rfl rfl (by decide) (by omega)
          · split
            · rename_i hsmall
              exact doubleQuoted_hex (by decide) rfl rfl (by decide) (by omega)
            · exact doubleQuoted_hex (by decide) rfl rfl (by decide) (by omega)
        all_goals
          rename_i h
          rw [hcode h]
          exact doubleQuoted_letter (by decide) rfl

theorem doubleQuoted_quoted (s : List Char) {fuel : Nat} (h : s.length < fuel)
    (read rest : List Char) :
    doubleQuoted fuel read (s.flatMap quoteChar ++ '"' :: rest) =
      .ok (read.reverse ++ s, rest) := by
  induction s generalizing fuel read with
  | nil =>
      obtain ⟨fuel, rfl⟩ := Nat.exists_eq_add_one.mpr (Nat.zero_lt_of_lt h)
      simp [doubleQuoted]
  | cons c s ih =>
      obtain ⟨fuel, rfl⟩ := Nat.exists_eq_add_one.mpr (Nat.zero_lt_of_lt h)
      rw [List.flatMap_cons, List.append_assoc, doubleQuoted_quoteChar,
        ih (by simpa using h), List.reverse_cons, List.append_assoc, List.singleton_append]

/-- A quoted text is read as that text, and what follows it is left. -/
theorem quotedScalar?_quoted (s : String) (rest : List Char) :
    quotedScalar? ((quoted s).toList ++ rest) = some (.ok (s.toList, rest)) := by
  have hlength : s.toList.length ≤ (s.toList.flatMap quoteChar).length := by
    induction s.toList with
    | nil => exact Nat.le_refl 0
    | cons c s ih =>
        have := List.length_pos_iff.mpr (quoteChar_ne_nil c)
        rw [List.flatMap_cons, List.length_append, List.length_cons]
        omega
  have hlines : (quoted s).toList ++ rest = '"' :: (s.toList.flatMap quoteChar ++ '"' :: rest) := by
    rw [quoted, String.toList_ofList, List.cons_append, List.cons_append, List.append_assoc,
      List.singleton_append]
  rw [hlines, quotedScalar?, doubleQuoted_quoted]
  · rfl
  · rw [List.length_append, List.length_cons]
    omega

end ReviewQueue.Yaml
