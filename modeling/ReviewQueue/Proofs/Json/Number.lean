import ReviewQueue.Proofs.Text.Decimal
import ReviewQueue.Json.Reader

/-!
# Numbers in JSON texts

The spelling of a number is a sign, a whole part, a fraction and an exponent. The reader takes a
spelling as a whole exactly when nothing behind it would make it longer.

* `isNumber_of_read` — what the reader takes is such a spelling;
* `IsNumber.read` — a spelling is taken from the front of any text that stops it.
-/

namespace ReviewQueue.Json

/-- What may follow a value: nothing that would make a number longer. -/
def Stops (x : List Char) : Prop :=
  ∀ c, x.head? = some c → Text.isDigit c = false ∧ c ≠ '.' ∧ c ≠ 'e' ∧ c ≠ 'E'

theorem stops_nil : Stops [] := by
  intro c h
  cases h

theorem stops_cons {c : Char} (h : Text.isDigit c = false ∧ c ≠ '.' ∧ c ≠ 'e' ∧ c ≠ 'E')
    (x : List Char) : Stops (c :: x) := by
  intro d hd
  obtain rfl := Option.some.inj hd
  exact h

theorem stops_comma (x : List Char) : Stops (',' :: x) := stops_cons (by decide) x

theorem stops_bracket (x : List Char) : Stops (']' :: x) := stops_cons (by decide) x

theorem stops_brace (x : List Char) : Stops ('\x7d' :: x) := stops_cons (by decide) x

/-- Blanks stop a value, whatever they are followed by. -/
theorem stops_blanks {blanks : List Char} (hblanks : ∀ c ∈ blanks, isSpace c = true)
    {x : List Char} (hx : Stops x) : Stops (blanks ++ x) := by
  cases blanks with
  | nil => exact hx
  | cons c blanks =>
      have hc := hblanks c List.mem_cons_self
      simp only [isSpace, Bool.or_eq_true, beq_iff_eq] at hc
      refine stops_cons ?_ _
      rcases hc with ((rfl | rfl) | rfl) | rfl <;> decide

/-! ## Runs of digits -/

/-- A run of at least one digit. -/
def IsDigits (s : List Char) : Prop :=
  s ≠ [] ∧ ∀ c ∈ s, Text.isDigit c = true

/-- A text that does not start with a digit. -/
def NoDigit (x : List Char) : Prop :=
  ∀ c, x.head? = some c → Text.isDigit c = false

theorem Stops.noDigit {x : List Char} (h : Stops x) : NoDigit x :=
  fun c hc => (h c hc).1

theorem noDigit_cons {c : Char} (h : Text.isDigit c = false) (x : List Char) :
    NoDigit (c :: x) := by
  intro d hd
  obtain rfl := Option.some.inj hd
  exact h

theorem takeWhile_of_noDigit {x : List Char} (h : NoDigit x) :
    x.takeWhile Text.isDigit = [] ∧ x.dropWhile Text.isDigit = x := by
  cases x with
  | nil => exact ⟨rfl, rfl⟩
  | cons c x =>
      have hc : ¬ Text.isDigit c = true := by simp [h c rfl]
      exact ⟨List.takeWhile_cons_of_neg hc, List.dropWhile_cons_of_neg hc⟩

theorem IsDigits.read {s x : List Char} (hs : IsDigits s) (hx : NoDigit x) :
    readDigits (s ++ x) = some (s, x) := by
  obtain ⟨hne, hdigits⟩ := hs
  obtain ⟨htake, hdrop⟩ := takeWhile_of_noDigit hx
  have htake : (s ++ x).takeWhile Text.isDigit = s := by
    rw [List.takeWhile_append_of_pos hdigits, htake, List.append_nil]
  have hdrop : (s ++ x).dropWhile Text.isDigit = x := by
    rw [List.dropWhile_append_of_pos hdigits, hdrop]
  obtain ⟨c, rest, rfl⟩ := List.exists_cons_of_ne_nil hne
  rw [readDigits, htake]
  simp only [hdrop]

theorem isDigits_of_read {s digits rest : List Char} (h : readDigits s = some (digits, rest)) :
    s = digits ++ rest ∧ IsDigits digits := by
  unfold readDigits at h
  split at h
  · cases h
  · rename_i hne
    simp only [Option.some.injEq, Prod.mk.injEq] at h
    obtain ⟨rfl, rfl⟩ := h
    refine ⟨List.takeWhile_append_dropWhile.symm, hne, fun c hc => ?_⟩
    exact List.all_eq_true.mp List.all_takeWhile c hc

/-! ## The parts of a number -/

/-- A whole part: zero, or digits that do not start with a zero. -/
def IsWhole (s : List Char) : Prop :=
  s = ['0'] ∨ IsDigits s ∧ s.head? ≠ some '0'

/-- A fraction, which may be missing. -/
def IsFraction (s : List Char) : Prop :=
  s = [] ∨ ∃ digits, s = '.' :: digits ∧ IsDigits digits

/-- An exponent, which may be missing. -/
def IsExponent (s : List Char) : Prop :=
  s = [] ∨ ∃ e sign digits, s = e :: (sign ++ digits) ∧ (e = 'e' ∨ e = 'E') ∧
    (sign = [] ∨ sign = ['+'] ∨ sign = ['-']) ∧ IsDigits digits

theorem IsWhole.read {s x : List Char} (hs : IsWhole s) (hx : NoDigit x) :
    readWhole (s ++ x) = some (s, x) := by
  rcases hs with rfl | ⟨hdigits, hzero⟩
  · rfl
  · obtain ⟨c, rest, rfl⟩ := List.exists_cons_of_ne_nil hdigits.1
    have hc : c ≠ '0' := by simpa using hzero
    have hread : readWhole (c :: rest ++ x) = readDigits (c :: rest ++ x) := by
      rw [List.cons_append, readWhole]
      intro rest h
      exact hc (List.cons.inj h).1
    rw [hread, hdigits.read hx]

theorem isWhole_of_read {s whole rest : List Char} (h : readWhole s = some (whole, rest)) :
    s = whole ++ rest ∧ IsWhole whole := by
  unfold readWhole at h
  split at h
  · obtain ⟨rfl, rfl⟩ := Prod.mk.inj (Option.some.inj h)
    exact ⟨rfl, .inl rfl⟩
  · rename_i hzero
    obtain ⟨rfl, hdigits⟩ := isDigits_of_read h
    refine ⟨rfl, .inr ⟨hdigits, ?_⟩⟩
    obtain ⟨c, tail, rfl⟩ := List.exists_cons_of_ne_nil hdigits.1
    rintro ⟨⟩
    exact hzero (tail ++ rest) rfl

theorem IsFraction.read {s x : List Char} (hs : IsFraction s) (hx : NoDigit x)
    (hpoint : x.head? ≠ some '.') : readFraction (s ++ x) = some (s, x) := by
  rcases hs with rfl | ⟨digits, rfl, hdigits⟩
  · unfold readFraction
    split
    · rename_i h
      simp only [List.nil_append] at h
      simp [h] at hpoint
    · rfl
  · rw [List.cons_append, readFraction, hdigits.read hx]
    rfl

theorem isFraction_of_read {s fraction rest : List Char}
    (h : readFraction s = some (fraction, rest)) : s = fraction ++ rest ∧ IsFraction fraction := by
  unfold readFraction at h
  split at h
  · obtain ⟨⟨digits, rest'⟩, hread, heq⟩ := Option.map_eq_some_iff.mp h
    obtain ⟨rfl, rfl⟩ := Prod.mk.inj heq
    obtain ⟨rfl, hdigits⟩ := isDigits_of_read hread
    exact ⟨rfl, .inr ⟨digits, rfl, hdigits⟩⟩
  · obtain ⟨rfl, rfl⟩ := Prod.mk.inj (Option.some.inj h)
    exact ⟨rfl, .inl rfl⟩

theorem IsExponent.read {s x : List Char} (hs : IsExponent s) (hx : Stops x) :
    readExponent (s ++ x) = some (s, x) := by
  rcases hs with rfl | ⟨e, sign, digits, rfl, he, hsign, hdigits⟩
  · cases x with
    | nil => rfl
    | cons c x =>
        obtain ⟨-, -, hc1, hc2⟩ := hx c rfl
        simp [readExponent, hc1, hc2]
  · -- the digits behind the letter start with no sign
    have hread := hdigits.read hx.noDigit
    obtain ⟨c, rest, rfl⟩ := List.exists_cons_of_ne_nil hdigits.1
    have hc := Text.not_sign_of_isDigit (hdigits.2 c List.mem_cons_self)
    simp only [List.cons_append] at hread
    rcases hsign with rfl | rfl | rfl <;> simp [readExponent, he, hc, hread]

theorem isExponent_of_read {s exponent rest : List Char}
    (h : readExponent s = some (exponent, rest)) : s = exponent ++ rest ∧ IsExponent exponent := by
  unfold readExponent at h
  split at h
  · rename_i e tail
    split at h
    · rename_i he
      split at h
      · rename_i sign digits
        split at h
        · rename_i hsign
          obtain ⟨⟨digits, rest'⟩, hread, heq⟩ := Option.map_eq_some_iff.mp h
          obtain ⟨rfl, rfl⟩ := Prod.mk.inj heq
          obtain ⟨rfl, hdigits⟩ := isDigits_of_read hread
          refine ⟨rfl, .inr ⟨e, [sign], digits, rfl, he, .inr ?_, hdigits⟩⟩
          simpa using hsign
        · obtain ⟨⟨digits, rest'⟩, hread, heq⟩ := Option.map_eq_some_iff.mp h
          obtain ⟨rfl, rfl⟩ := Prod.mk.inj heq
          obtain ⟨htail, hdigits⟩ := isDigits_of_read hread
          rw [htail]
          exact ⟨rfl, .inr ⟨e, [], digits, rfl, he, .inl rfl, hdigits⟩⟩
      · cases h
    · obtain ⟨rfl, rfl⟩ := Prod.mk.inj (Option.some.inj h)
      exact ⟨rfl, .inl rfl⟩
  · obtain ⟨rfl, rfl⟩ := Prod.mk.inj (Option.some.inj h)
    exact ⟨rfl, .inl rfl⟩

/-! ## Numbers -/

/-- The spelling of a number. -/
def IsNumber (s : List Char) : Prop :=
  ∃ sign whole fraction exponent, s = sign ++ whole ++ fraction ++ exponent ∧
    (sign = [] ∨ sign = ['-']) ∧ IsWhole whole ∧ IsFraction fraction ∧ IsExponent exponent

/-- Reads what stands behind a sign, or behind none. -/
def readMagnitude (sign s : List Char) : Option (List Char × List Char) := do
  let (whole, s) ← readWhole s
  let (fraction, s) ← readFraction s
  let (exponent, s) ← readExponent s
  return (sign ++ whole ++ fraction ++ exponent, s)

theorem readNumber_minus (s : List Char) : readNumber ('-' :: s) = readMagnitude ['-'] s := rfl

theorem readNumber_of_ne {s : List Char} (h : s.head? ≠ some '-') :
    readNumber s = readMagnitude [] s := by
  unfold readNumber
  split
  rename_i heq
  split at heq
  · simp at h
  · obtain ⟨rfl, rfl⟩ := Prod.mk.inj heq
    rfl

theorem readMagnitude_of_parts (sign : List Char) {whole fraction exponent x : List Char}
    (hwhole : IsWhole whole) (hfraction : IsFraction fraction) (hexponent : IsExponent exponent)
    (hx : Stops x) :
    readMagnitude sign (whole ++ (fraction ++ (exponent ++ x))) =
      some (sign ++ whole ++ fraction ++ exponent, x) := by
  -- whatever comes next, it starts with no digit that would be taken along
  have hbehindFraction : NoDigit (exponent ++ x) ∧ (exponent ++ x).head? ≠ some '.' := by
    rcases hexponent with rfl | ⟨e, _, _, rfl, rfl | rfl, -⟩
    · exact ⟨hx.noDigit, fun h => (hx _ h).2.1 rfl⟩
    all_goals exact ⟨noDigit_cons (by decide) _, by simp⟩
  have hbehindWhole : NoDigit (fraction ++ (exponent ++ x)) := by
    rcases hfraction with rfl | ⟨_, rfl, -⟩
    · exact hbehindFraction.1
    · exact noDigit_cons (by decide) _
  simp only [readMagnitude, hwhole.read hbehindWhole,
    hfraction.read hbehindFraction.1 hbehindFraction.2, hexponent.read hx, bind, Option.bind, pure]

theorem head?_of_isWhole {whole : List Char} (h : IsWhole whole) (x : List Char) :
    ∃ c, (whole ++ x).head? = some c ∧ Text.isDigit c = true := by
  rcases h with rfl | ⟨⟨hne, hdigits⟩, -⟩
  · exact ⟨'0', rfl, by decide⟩
  · obtain ⟨c, rest, rfl⟩ := List.exists_cons_of_ne_nil hne
    exact ⟨c, rfl, hdigits c List.mem_cons_self⟩

/-- A spelling is taken from the front of any text that stops it. -/
theorem IsNumber.read {s : List Char} (hs : IsNumber s) {x : List Char} (hx : Stops x) :
    readNumber (s ++ x) = some (s, x) := by
  obtain ⟨sign, whole, fraction, exponent, rfl, hsign, hwhole, hfraction, hexponent⟩ := hs
  have hparts := readMagnitude_of_parts sign hwhole hfraction hexponent hx
  have htext : sign ++ whole ++ fraction ++ exponent ++ x =
      sign ++ (whole ++ (fraction ++ (exponent ++ x))) := by
    simp only [List.append_assoc]
  rw [htext]
  rcases hsign with rfl | rfl
  · -- without a sign the whole part is in front, which starts with a digit
    obtain ⟨c, hhead, hdigit⟩ := head?_of_isWhole hwhole (fraction ++ (exponent ++ x))
    rw [List.nil_append, readNumber_of_ne, hparts]
    rw [hhead]
    exact fun h => (Text.not_sign_of_isDigit hdigit).1 (Option.some.inj h)
  · rw [List.singleton_append, readNumber_minus, hparts]

theorem parts_of_readMagnitude {sign s spelling rest : List Char}
    (h : readMagnitude sign s = some (spelling, rest)) :
    ∃ whole fraction exponent, s = whole ++ fraction ++ exponent ++ rest ∧
      spelling = sign ++ whole ++ fraction ++ exponent ∧
      IsWhole whole ∧ IsFraction fraction ∧ IsExponent exponent := by
  simp only [readMagnitude, bind, Option.bind_eq_some_iff, pure, Option.some.injEq,
    Prod.mk.injEq, Prod.exists] at h
  obtain ⟨whole, s1, hread1, fraction, s2, hread2, exponent, s3, hread3, rfl, rfl⟩ := h
  obtain ⟨rfl, hwhole⟩ := isWhole_of_read hread1
  obtain ⟨rfl, hfraction⟩ := isFraction_of_read hread2
  obtain ⟨rfl, hexponent⟩ := isExponent_of_read hread3
  exact ⟨whole, fraction, exponent, by simp, rfl, hwhole, hfraction, hexponent⟩

/-- What the reader takes is the spelling of a number, and it takes it from the front. -/
theorem isNumber_of_read {s spelling rest : List Char}
    (h : readNumber s = some (spelling, rest)) : s = spelling ++ rest ∧ IsNumber spelling := by
  by_cases hminus : s.head? = some '-'
  · obtain ⟨tail, rfl⟩ : ∃ tail, s = '-' :: tail := by
      cases s with
      | nil => cases hminus
      | cons c tail => exact ⟨tail, by rw [Option.some.inj hminus]⟩
    obtain ⟨whole, fraction, exponent, rfl, rfl, hwhole, hfraction, hexponent⟩ :=
      parts_of_readMagnitude (readNumber_minus tail ▸ h)
    exact ⟨by simp, ['-'], whole, fraction, exponent, rfl, .inr rfl, hwhole, hfraction, hexponent⟩
  · obtain ⟨whole, fraction, exponent, rfl, rfl, hwhole, hfraction, hexponent⟩ :=
      parts_of_readMagnitude (readNumber_of_ne hminus ▸ h)
    exact ⟨by simp, [], whole, fraction, exponent, rfl, .inl rfl, hwhole, hfraction, hexponent⟩

/-- A spelling starts with a minus or a digit. -/
theorem IsNumber.head {s : List Char} (h : IsNumber s) :
    ∃ c rest, s = c :: rest ∧ (c = '-' ∨ Text.isDigit c = true) := by
  obtain ⟨sign, whole, fraction, exponent, rfl, rfl | rfl, hwhole, -⟩ := h
  · obtain ⟨c, hhead, hdigit⟩ := head?_of_isWhole hwhole (fraction ++ exponent)
    obtain ⟨rest, hrest⟩ := List.head?_eq_some_iff.mp hhead
    exact ⟨c, rest, by simpa using hrest, .inr hdigit⟩
  · exact ⟨'-', whole ++ fraction ++ exponent, by simp, .inl rfl⟩

/-- A spelling has digits, signs, a point and the letters of an exponent. -/
theorem IsNumber.mem {s : List Char} (h : IsNumber s) {c : Char} (hc : c ∈ s) :
    Text.isDigit c = true ∨ c = '-' ∨ c = '+' ∨ c = '.' ∨ c = 'e' ∨ c = 'E' := by
  obtain ⟨sign, whole, fraction, exponent, rfl, hsign, hwhole, hfraction, hexponent⟩ := h
  simp only [List.mem_append] at hc
  -- by the part in which the character stands
  rcases hc with ((hc | hc) | hc) | hc
  · rcases hsign with rfl | rfl <;> simp_all
  · rcases hwhole with rfl | ⟨⟨-, hdigits⟩, -⟩
    · obtain rfl := List.mem_singleton.mp hc
      exact .inl (by decide)
    · exact .inl (hdigits c hc)
  · rcases hfraction with rfl | ⟨digits, rfl, -, hdigits⟩
    · cases hc
    · rcases List.mem_cons.mp hc with rfl | hc
      · simp
      · exact .inl (hdigits c hc)
  · rcases hexponent with rfl | ⟨e, sign, digits, rfl, he, hsign, -, hdigits⟩
    · cases hc
    · rcases List.mem_cons.mp hc with rfl | hc
      · rcases he with rfl | rfl <;> simp
      · rcases List.mem_append.mp hc with hc | hc
        · rcases hsign with rfl | rfl | rfl <;> simp_all
        · exact .inl (hdigits c hc)

/-- The text of an integer is the spelling of a number. -/
theorem isNumber_intText (n : Int) : IsNumber (intText n) := by
  have hwhole (m : Nat) : IsWhole (Text.decimal m) := by
    rcases Nat.eq_zero_or_pos m with rfl | hm
    · exact .inl Text.decimal_zero
    · exact .inr ⟨⟨Text.decimal_ne_nil m, fun _ h => Text.isDigit_of_mem_decimal h⟩,
        Text.head?_decimal_ne_zero (by omega)⟩
  unfold intText Text.numeral
  split
  · exact ⟨['-'], Text.decimal n.natAbs, [], [], by simp, .inr rfl, hwhole _, .inl rfl, .inl rfl⟩
  · exact ⟨[], Text.decimal n.natAbs, [], [], by simp, .inl rfl, hwhole _, .inl rfl, .inl rfl⟩

end ReviewQueue.Json
