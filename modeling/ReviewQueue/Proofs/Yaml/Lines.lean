import Mathlib.Data.List.TakeWhile
import ReviewQueue.Proofs.Yaml.Quoted
import ReviewQueue.Yaml.Scalar

/-! # The lines of a YAML document that say nothing

A reader of blocks first skips the lines that are empty or hold only a comment. Skipping takes off
one such line at a time, and stops at the first line that says something; what a plain scalar leaves
behind it is skipped to the same line.

* `joined`, `splitOn_joined` — lines, each with its break
* `IsNote`, `skipLines_note` — lines that are skipped
* `skipLines_start` — a line that is not
* `leads_of_skipLines` — the blanks and breaks that lead to the line where skipping stops
-/

namespace ReviewQueue.Yaml

/-- Lines, each with the break that ends it. -/
def joined (lines : List (List Char)) : List Char :=
  lines.flatMap (· ++ ['\n'])

theorem joined_cons (line : List Char) (lines : List (List Char)) :
    joined (line :: lines) = line ++ '\n' :: joined lines := by
  simp [joined]

theorem joined_append (lines more : List (List Char)) :
    joined (lines ++ more) = joined lines ++ joined more := by
  simp [joined]

/-- Lines without breaks in them are found again by the breaks between them. -/
theorem splitOn_joined {lines : List (List Char)} (h : ∀ line ∈ lines, '\n' ∉ line) :
    (joined lines).splitOn '\n' = lines ++ [[]] := by
  have hjoined : joined lines = ['\n'].intercalate (lines ++ [[]]) := by
    clear h
    induction lines with
    | nil => rfl
    | cons line lines ih =>
        -- there is always one more line, which is empty at the end
        obtain ⟨next, more, hmore⟩ := List.exists_cons_of_ne_nil (show lines ++ [[]] ≠ [] by simp)
        rw [joined_cons, ih, List.cons_append, hmore, List.intercalate_cons_cons,
          List.append_assoc]
        rfl
  rw [hjoined]
  refine List.splitOn_intercalate '\n' (fun line hline => ?_) (by simp)
  rcases List.mem_append.mp hline with hline | hline
  · exact h line hline
  · rw [List.mem_singleton.mp hline]
    exact List.not_mem_nil

/-- Blanks before something else. -/
def indented (column : Nat) (s : List Char) : List Char :=
  List.replicate column ' ' ++ s

/-- A line that says nothing: what follows its blanks is nothing or a printable comment. -/
def IsNote (line : List Char) : Prop :=
  ∃ column words, line = indented column words ∧ (words = [] ∨ words.head? = some '#') ∧
    ∀ c ∈ words, Text.isPrintable c = true

/-- A character that a line may say something with. -/
def IsStart (c : Char) : Prop :=
  isSpace c = false ∧ c ≠ '#'

instance (c : Char) : Decidable (IsStart c) :=
  inferInstanceAs (Decidable (_ ∧ _))

theorem isSpace_eq_false_iff {c : Char} :
    isSpace c = false ↔ isGap c = false ∧ isBreak c = false :=
  Bool.or_eq_false_iff

theorem IsStart.ne {c : Char} (h : IsStart c) : c ≠ ' ' ∧ c ≠ '\t' ∧ isBreak c = false := by
  obtain ⟨hspace, -⟩ := h
  simp only [isSpace, isGap, Bool.or_eq_false_iff, beq_eq_false_iff_ne] at hspace
  exact ⟨hspace.1.1, hspace.1.2, hspace.2⟩

theorem dropWhile_indented (column : Nat) (s : List Char) :
    (indented column s).dropWhile (· == ' ') = s.dropWhile (· == ' ') := by
  induction column with
  | zero => rfl
  | succ column ih => exact ih

theorem indentOf_indented {c : Char} (h : c ≠ ' ') (column : Nat) (s : List Char) :
    indentOf (indented column (c :: s)) = column := by
  simp [indentOf, indented, List.takeWhile_append_of_pos, h]

theorem drop_indented (column : Nat) (s : List Char) : (indented column s).drop column = s :=
  List.drop_left' List.length_replicate

/-! ## Skipping -/

theorem length_afterLine_le (s : List Char) : (afterLine s).length ≤ s.length := by
  have := (List.dropWhile_suffix (!isBreak ·) (l := s)).length_le
  rw [afterLine, List.length_tail]
  omega

theorem afterLine_append {line : List Char} (h : ∀ c ∈ line, isBreak c = false)
    (rest : List Char) : afterLine (line ++ '\n' :: rest) = rest := by
  have hall : ∀ c ∈ line, (!isBreak c) = true := fun c hc => by rw [h c hc]; rfl
  rw [afterLine, List.dropWhile_append_of_pos hall]
  rfl

/-- With fuel for every character, more fuel changes nothing. -/
theorem nextLine_fuel {a b : Nat} {s : List Char} (ha : s.length < a) (hb : s.length < b) :
    nextLine a s = nextLine b s := by
  induction a generalizing b s with
  | zero => omega
  | succ a ih =>
      obtain ⟨b, rfl⟩ : ∃ b', b = b' + 1 := ⟨b - 1, by omega⟩
      have hle := (List.dropWhile_suffix (· == ' ') (l := s)).length_le
      unfold nextLine
      split
      · rfl
      · rename_i rest heq
        have := length_afterLine_le rest
        rw [heq, List.length_cons] at hle
        exact ih (by omega) (by omega)
      · rfl
      · rename_i c rest _ _ heq
        rw [heq, List.length_cons] at hle
        split
        · exact ih (by omega) (by omega)
        · rfl

/-- A line that says nothing is skipped. -/
theorem skipLines_note {line : List Char} (h : IsNote line) (rest : List Char) :
    skipLines (line ++ '\n' :: rest) = skipLines rest := by
  obtain ⟨column, words, rfl, hwords, hprintable⟩ := h
  have hlength : rest.length < (indented column words ++ '\n' :: rest).length := by
    rw [List.length_append, List.length_cons]
    omega
  have hdrop : (indented column words ++ '\n' :: rest).dropWhile (· == ' ') =
      (words ++ '\n' :: rest).dropWhile (· == ' ') := by
    rw [indented, List.append_assoc]
    exact dropWhile_indented column _
  rw [skipLines, nextLine, hdrop]
  -- nothing stands behind the blanks, or a comment that ends with the line
  rcases hwords with rfl | hhash
  · exact nextLine_fuel hlength (Nat.lt_succ_self _)
  · obtain ⟨w, rfl⟩ := List.head?_eq_some_iff.mp hhash
    show nextLine _ (afterLine (w ++ '\n' :: rest)) = _
    rw [afterLine_append fun c hc =>
      not_break_of_isPrintable (hprintable c (List.mem_cons_of_mem _ hc))]
    exact nextLine_fuel hlength (Nat.lt_succ_self _)

/-- A line that says something is where skipping stops. -/
theorem skipLines_start {c : Char} (h : IsStart c) (column : Nat) (s : List Char) :
    skipLines (indented column (c :: s)) = .ok (indented column (c :: s)) := by
  obtain ⟨hblank, htab, hbreak⟩ := h.ne
  have hdrop : (indented column (c :: s)).dropWhile (· == ' ') = c :: s := by
    rw [dropWhile_indented, List.dropWhile_cons_of_neg (by simpa using hblank)]
  rw [skipLines, nextLine, hdrop]
  split
  · rename_i heq
    cases heq
  · rename_i heq
    cases heq
    exact absurd rfl h.2
  · rename_i heq
    cases heq
    exact absurd rfl htab
  · rename_i heq
    cases heq
    rw [if_neg (by simp [hbreak])]

/-! ## The blanks before the next line -/

theorem isSpace_of_mem_replicate {column : Nat} {c : Char} (h : c ∈ List.replicate column ' ') :
    isSpace c = true := by
  rw [List.eq_of_mem_replicate h]
  decide

theorem takeWhile_isSpace_indented (column : Nat) (s : List Char) :
    (indented column s).takeWhile isSpace = List.replicate column ' ' ++ s.takeWhile isSpace :=
  List.takeWhile_append_of_pos fun _ => isSpace_of_mem_replicate

theorem dropWhile_isSpace_indented (column : Nat) (s : List Char) :
    (indented column s).dropWhile isSpace = s.dropWhile isSpace :=
  List.dropWhile_append_of_pos fun _ => isSpace_of_mem_replicate

/-- The blanks of the last line of what is blank. -/
def margin (gap : List Char) : List Char :=
  (gap.reverse.takeWhile (!isBreak ·)).reverse

theorem margin_append_break {c : Char} (h : isBreak c = true) (before gap : List Char) :
    margin (before ++ c :: gap) = margin gap := by
  -- the last break ends what is taken from behind
  have hstop : ((c :: before.reverse).takeWhile (!isBreak ·)) = [] := by
    rw [List.takeWhile_cons_of_neg (by simp [h])]
  have hreverse : (before ++ c :: gap).reverse = gap.reverse ++ c :: before.reverse := by simp
  rw [margin, margin, hreverse, List.takeWhile_append, hstop, List.append_nil]
  split
  · rename_i hlength
    rw [(List.takeWhile_prefix (!isBreak ·)).eq_of_length hlength]
  · rfl

theorem margin_replicate (column : Nat) :
    margin (List.replicate column ' ') = List.replicate column ' ' := by
  have hblank : isBreak ' ' = false := by decide
  rw [margin, List.reverse_replicate, List.takeWhile_replicate, hblank, Bool.not_false,
    if_pos rfl, List.reverse_replicate]

/-- What stands after blanks of which the last line holds `margin`, when skipping them leads to
`r`: nothing, or a comment that is skipped too, or the line that `r` starts with. -/
inductive Stops (margin : List Char) : List Char → List Char → Prop
  | nothing : Stops margin [] []
  | note {w r : List Char} (h : skipLines (margin ++ '#' :: w) = .ok r) : Stops margin ('#' :: w) r
  | line {column : Nat} {c : Char} {w : List Char} (hc : IsStart c)
      (h : margin = List.replicate column ' ') : Stops margin (c :: w) (margin ++ c :: w)

/-- The blanks that a text starts with lead to `r`, and none of them is a tab. -/
structure Leads (s r : List Char) : Prop where
  no_tab : '\t' ∉ s.takeWhile isSpace
  stops : Stops (margin (s.takeWhile isSpace)) (s.dropWhile isSpace) r

theorem leads_blanks (column : Nat) : Leads (indented column []) [] := by
  constructor
  · rw [takeWhile_isSpace_indented, List.takeWhile_nil, List.append_nil]
    exact fun hmem => absurd (List.eq_of_mem_replicate hmem) (by decide)
  · rw [dropWhile_isSpace_indented]
    exact .nothing

theorem leads_indented {column : Nat} {c : Char} {w r : List Char} (hc : isSpace c = false)
    (h : Stops (List.replicate column ' ') (c :: w) r) : Leads (indented column (c :: w)) r := by
  have hgap : (indented column (c :: w)).takeWhile isSpace = List.replicate column ' ' := by
    rw [takeWhile_isSpace_indented, List.takeWhile_cons_of_neg (by simp [hc]), List.append_nil]
  constructor
  · rw [hgap]
    exact fun hmem => absurd (List.eq_of_mem_replicate hmem) (by decide)
  · rw [hgap, margin_replicate, dropWhile_isSpace_indented,
      List.dropWhile_cons_of_neg (by simp [hc])]
    exact h

theorem Leads.emptyLine {c : Char} {w r : List Char} (h : Leads w r) (hc : isBreak c = true)
    (column : Nat) : Leads (indented column (c :: w)) r := by
  have hspace : isSpace c = true := by rw [isSpace, hc, Bool.or_true]
  have hgap : (indented column (c :: w)).takeWhile isSpace =
      List.replicate column ' ' ++ c :: w.takeWhile isSpace := by
    rw [takeWhile_isSpace_indented, List.takeWhile_cons_of_pos hspace]
  constructor
  · rw [hgap, List.mem_append, List.mem_cons]
    rintro (hmem | rfl | hmem)
    · exact absurd (List.eq_of_mem_replicate hmem) (by decide)
    · exact absurd hc (by decide)
    · exact h.no_tab hmem
  · rw [hgap, margin_append_break hc, dropWhile_isSpace_indented,
      List.dropWhile_cons_of_pos hspace]
    exact h.stops

theorem eq_indented (s : List Char) : s = indented (indentOf s) (s.dropWhile (· == ' ')) := by
  have hblanks : s.takeWhile (· == ' ') = List.replicate (indentOf s) ' ' :=
    List.eq_replicate_iff.mpr ⟨rfl, fun c hc => by simpa using List.mem_takeWhile_imp hc⟩
  rw [indented, ← hblanks, List.takeWhile_append_dropWhile]

/-- Where skipping stops is where the blanks lead. The induction is on the lines that are
skipped. -/
theorem leads_of_nextLine {fuel : Nat} {s r : List Char} (h : nextLine fuel s = .ok r)
    (hfuel : s.length < fuel) : Leads s r := by
  induction fuel generalizing s with
  | zero => omega
  | succ fuel ih =>
      have hskip : skipLines s = .ok r := by
        rw [← h]
        exact nextLine_fuel (Nat.lt_succ_self _) hfuel
      have hle := (List.dropWhile_suffix (· == ' ') (l := s)).length_le
      have hs := eq_indented s
      unfold nextLine at h
      split at h
      case h_1 heq =>
        rw [hs, heq, ← Except.ok.inj h]
        exact leads_blanks _
      case h_2 w heq =>
        rw [heq] at hs
        rw [hs] at hskip ⊢
        exact leads_indented (by decide) (.note hskip)
      case h_3 => cases h
      case h_4 c w hhash htab heq =>
        have hfirst := List.head?_dropWhile_not (· == ' ') s
        rw [heq] at hs hle hfirst
        split at h
        · -- an empty line, which the induction goes on behind
          rename_i hbreak
          rw [hs]
          exact (ih h (by rw [List.length_cons] at hle; omega)).emptyLine hbreak _
        · rename_i hbreak
          have hblank : c ≠ ' ' := by simpa using hfirst
          have hspace : isSpace c = false := by
            simp [isSpace, isGap, hblank, show c ≠ '\t' from htab, hbreak]
          rw [← Except.ok.inj h, hs]
          exact leads_indented hspace (.line ⟨hspace, hhash⟩ rfl)

theorem leads_of_skipLines {s r : List Char} (h : skipLines s = .ok r) : Leads s r :=
  leads_of_nextLine h (Nat.lt_succ_self _)

end ReviewQueue.Yaml
