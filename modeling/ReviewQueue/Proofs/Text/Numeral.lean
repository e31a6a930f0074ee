import ReviewQueue.Text.Numeral

/-!
# Positive numerals

Which texts are read as a positive integer: digits, with or without a plus sign, whose value fits
a word.
-/

namespace ReviewQueue.Text

/-- A text that is a decimal numeral of a positive integer. -/
def IsPositiveNumeral (s : List Char) (n : Int) : Prop :=
  ∃ digits : List Char, digits ≠ [] ∧ (∀ c ∈ digits, isDigit c = true) ∧
    (s = digits ∨ s = '+' :: digits) ∧ (digitsValue digits : Int) = n ∧ 0 < n ∧ n ≤ wordMax

theorem readDigits?_eq_some_iff (s : List Char) (n : Nat) :
    readDigits? s = some n ↔ s ≠ [] ∧ (∀ c ∈ s, isDigit c = true) ∧ digitsValue s = n := by
  rw [← List.all_eq_true]
  unfold readDigits?
  cases s with
  | nil => simp
  | cons c rest => cases (c :: rest).all isDigit <;> simp

/-- A sign is no digit, so a text of digits starts with none. -/
theorem not_sign_of_isDigit {c : Char} (h : isDigit c = true) : c ≠ '-' ∧ c ≠ '+' := by
  constructor <;> rintro rfl <;> exact absurd h (by decide)

theorem fitsWord_of_pos {n : Int} (h : 0 < n) : fitsWord n = true ↔ n ≤ wordMax := by
  unfold fitsWord wordMin
  simp only [Bool.and_eq_true, decide_eq_true_eq]
  omega

/-- Reads what stands behind a plus sign, or behind none. -/
def readUnsigned (digits : List Char) : Except NumeralError Int :=
  match readDigits? digits with
  | none => .error .malformed
  | some n => if fitsWord n then .ok (n : Int) else .error .outOfRange

theorem readUnsigned_pos_iff (digits : List Char) (n : Int) :
    readUnsigned digits = .ok n ∧ 0 < n ↔
      digits ≠ [] ∧ (∀ c ∈ digits, isDigit c = true) ∧ (digitsValue digits : Int) = n ∧
        0 < n ∧ n ≤ wordMax := by
  unfold readUnsigned
  constructor
  · rintro ⟨h, hpos⟩
    cases hread : readDigits? digits with
    | none => simp [hread] at h
    | some m =>
        obtain ⟨hne, hall, rfl⟩ := (readDigits?_eq_some_iff digits m).mp hread
        simp only [hread] at h
        split at h
        · rename_i hfits
          injection h with h
          subst h
          exact ⟨hne, hall, rfl, hpos, (fitsWord_of_pos hpos).mp hfits⟩
        · cases h
  · rintro ⟨hne, hall, rfl, hpos, hmax⟩
    rw [(readDigits?_eq_some_iff digits _).mpr ⟨hne, hall, rfl⟩]
    simp only [(fitsWord_of_pos hpos).mpr hmax, if_true]
    exact ⟨trivial, hpos⟩

/-- Reads what stands behind a minus sign. -/
def readNegative (digits : List Char) : Except NumeralError Int :=
  match readDigits? digits with
  | none => .error .malformed
  | some n => if fitsWord (-(n : Int)) then .ok (-(n : Int)) else .error .outOfRange

theorem readNumeral_minus (rest : List Char) : readNumeral ('-' :: rest) = readNegative rest := rfl

theorem readNumeral_plus (rest : List Char) : readNumeral ('+' :: rest) = readUnsigned rest := rfl

theorem readNumeral_cons {c : Char} (h : c ≠ '-' ∧ c ≠ '+') (rest : List Char) :
    readNumeral (c :: rest) = readUnsigned (c :: rest) := by
  unfold readNumeral
  split
  rename_i heq
  split at heq
  · rename_i heq'
    injection heq' with hc
    exact absurd hc h.1
  · rename_i heq'
    injection heq' with hc
    exact absurd hc h.2
  · injection heq with hneg hdigits
    subst hneg hdigits
    rfl

/-- Behind a minus no positive value is read. -/
theorem readNumeral_minus_le {rest : List Char} {n : Int}
    (h : readNumeral ('-' :: rest) = .ok n) : n ≤ 0 := by
  rw [readNumeral_minus, readNegative] at h
  split at h
  · cases h
  · split at h
    · injection h with h
      omega
    · cases h

theorem readNumeral_pos_iff (s : List Char) (n : Int) :
    readNumeral s = .ok n ∧ 0 < n ↔ IsPositiveNumeral s n := by
  unfold IsPositiveNumeral
  cases s with
  | nil =>
      constructor
      · rintro ⟨h, -⟩
        cases h
      · rintro ⟨digits, hne, -, heq | heq, -⟩
        · exact absurd heq.symm hne
        · cases heq
  | cons c rest =>
      -- by the sign: a minus gives no positive value, and digits start with none
      by_cases hminus : c = '-'
      · subst hminus
        constructor
        · rintro ⟨h, hpos⟩
          have hle := readNumeral_minus_le h
          omega
        · rintro ⟨digits, -, hall, heq | heq, -⟩
          · exact absurd rfl (not_sign_of_isDigit (hall '-' (heq ▸ List.mem_cons_self))).1
          · exact absurd (List.cons.inj heq).1 (by decide)
      by_cases hplus : c = '+'
      · subst hplus
        rw [readNumeral_plus, readUnsigned_pos_iff]
        constructor
        · rintro ⟨hne, hall, hvalue⟩
          exact ⟨rest, hne, hall, .inr rfl, hvalue⟩
        · rintro ⟨digits, hne, hall, heq | heq, hvalue⟩
          · exact absurd rfl (not_sign_of_isDigit (hall '+' (heq ▸ List.mem_cons_self))).2
          · rw [(List.cons.inj heq).2]
            exact ⟨hne, hall, hvalue⟩
      · rw [readNumeral_cons ⟨hminus, hplus⟩, readUnsigned_pos_iff]
        constructor
        · rintro ⟨hne, hall, hvalue⟩
          exact ⟨c :: rest, hne, hall, .inl rfl, hvalue⟩
        · rintro ⟨digits, hne, hall, heq | heq, hvalue⟩
          · rw [heq]
            exact ⟨hne, hall, hvalue⟩
          · exact absurd (List.cons.inj heq).1 hplus

/-- The texts that are read as a positive integer. -/
theorem toInt?_pos_iff (s : String) (n : Int) :
    toInt? s = some n ∧ 0 < n ↔ IsPositiveNumeral s.toList n := by
  rw [← readNumeral_pos_iff]
  unfold toInt?
  cases readNumeral s.toList <;> simp

end ReviewQueue.Text
