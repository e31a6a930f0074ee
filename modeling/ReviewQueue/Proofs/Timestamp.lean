import ReviewQueue.Proofs.Text.Decimal
import ReviewQueue.Proofs.Json.Fill

/-!
# Times read back

A point in time is written with as many decimals as it needs and with the zone it was given, and it
is read as that point and that zone again. The reader allows more than is written, so whatever it
reads is a point that can be written, unless its zone is a day or more.

* `parse?_text` — what is written is read back;
* `isReal_of_parse` — what is read is a date and a time of day;
* `prints`, `keeps` — times in JSON texts.
-/

namespace ReviewQueue.Timestamp

/-- A date of the calendar and a time of day, in a year of four digits. -/
structure IsReal (t : Timestamp) : Prop where
  year : t.year ≤ 9999
  month : 1 ≤ t.month ∧ t.month ≤ 12
  day : 1 ≤ t.day ∧ t.day ≤ daysIn t.year t.month
  hour : t.hour < 24
  minute : t.minute < 60
  second : t.second < 60
  nanos : t.nanos < 1000000000

/-- A zone of less than a day. -/
def IsNear (t : Timestamp) : Prop := t.offset.natAbs < 1440

instance (t : Timestamp) : Decidable t.IsNear := inferInstanceAs (Decidable (_ < _))

theorem isReal_zero : zero.IsReal :=
  ⟨by decide, by decide, by decide, by decide, by decide, by decide, by decide⟩

theorem isNear_zero : zero.IsNear := by decide

theorem ofDate?_of_isReal {t : Timestamp} (h : t.IsReal) : ofDate? t = some t :=
  if_pos ⟨h.month.1, h.month.2, h.day.1, h.day.2, h.hour, h.minute, h.second⟩

theorem isReal_of_ofDate? {t t' : Timestamp} (hyear : t.year ≤ 9999) (hnanos : t.nanos < 1000000000)
    (h : ofDate? t = some t') : t'.IsReal := by
  unfold ofDate? at h
  split at h
  · rename_i hdate
    obtain rfl := Option.some.inj h
    obtain ⟨h1, h2, h3, h4, h5, h6, h7⟩ := hdate
    exact ⟨hyear, ⟨h1, h2⟩, ⟨h3, h4⟩, h5, h6, h7, hnanos⟩
  · cases h

theorem daysIn_le (year month : Nat) : daysIn year month ≤ 31 := by
  unfold daysIn
  split
  · split <;> omega
  · split <;> omega

/-! ## Digits read back -/

theorem readFixed_padded {width n : Nat} (hwidth : 0 < width) (h : n < 10 ^ width) (x : List Char) :
    readFixed width (Text.padded width n ++ x) = some (n, x) := by
  have hlength := Text.length_padded hwidth h
  have htake : (Text.padded width n ++ x).take width = Text.padded width n :=
    List.take_left' hlength
  have hdrop : (Text.padded width n ++ x).drop width = x := List.drop_left' hlength
  have hdigits : (Text.padded width n).all Text.isDigit = true :=
    List.all_eq_true.mpr fun _ hc => Text.isDigit_of_mem_padded hc
  rw [readFixed, htake, hdrop, if_pos ⟨hlength, hdigits⟩, Text.digitsValue_padded]

theorem readOneOrTwo_padded {n : Nat} (h : n < 100) (x : List Char) :
    readOneOrTwo (Text.padded 2 n ++ x) = some (n, x) := by
  rw [readOneOrTwo, readFixed_padded (by decide) h]
  rfl

theorem expect_cons (c : Char) (rest : List Char) : expect c (c :: rest) = some rest := by
  simp [expect]

theorem readZone_signed {sign : Char} (hsign : sign = '+' ∨ sign = '-') {hours minutes : Nat}
    (hhours : hours < 24) (hminutes : minutes < 60) :
    readZone (sign :: (Text.padded 2 hours ++ ':' :: Text.padded 2 minutes)) =
      some (if sign = '+' then (hours * 60 + minutes : Int) else -(hours * 60 + minutes)) := by
  have hread (n : Nat) (h : n < 60) (x : List Char) :
      readFixed 2 (Text.padded 2 n ++ x) = some (n, x) :=
    readFixed_padded (by decide) (by omega) x
  have hlast := hread minutes hminutes []
  rw [List.append_nil] at hlast
  -- the bounds of the reader are wider than those of a clock
  have hbound : ¬ (([] : List Char) ≠ [] ∨ hours > 24 ∨ minutes > 60) := by
    simp only [ne_eq, not_true_eq_false, false_or]
    omega
  rw [readZone]
  · simp only [hread hours (by omega), bind, Option.bind, expect_cons, hlast, if_neg hbound]
    rcases hsign with rfl | rfl <;> rfl
  · rintro rfl
    rcases hsign with h | h <;> cases h

theorem readZone_zoneText {offset : Int} (h : offset.natAbs < 1440) :
    readZone (zoneText offset) = some offset := by
  have hhours : offset.natAbs / 60 < 24 := by omega
  have hminutes : offset.natAbs % 60 < 60 := by omega
  unfold zoneText
  split
  · rename_i hzero
    rw [hzero]
    rfl
  · rw [List.cons_append, readZone_signed (by split <;> simp) hhours hminutes]
    refine congrArg some ?_
    by_cases hneg : offset < 0
    · rw [if_pos hneg, if_neg (by decide)]
      omega
    · rw [if_neg hneg, if_pos rfl]
      omega

/-- The decimals without trailing zeros have the same value as all nine. -/
theorem exists_decimals {nanos : Nat} (h : nanos < 1000000000) :
    ∃ digits, (∀ c ∈ digits, Text.isDigit c = true) ∧ digits.length ≤ 9 ∧
      Text.digitsValue digits * 10 ^ (9 - digits.length) = nanos ∧
      fractionText nanos = if digits = [] then [] else '.' :: digits := by
  have hlength : (Text.padded 9 nanos).length = 9 := Text.length_padded (by decide) h
  have hvalue := Text.digitsValue_padded 9 nanos
  have hdigit : ∀ c ∈ Text.padded 9 nanos, Text.isDigit c = true :=
    fun _ hc => Text.isDigit_of_mem_padded hc
  unfold fractionText
  generalize Text.padded 9 nanos = all at hlength hvalue hdigit
  generalize hkept : (all.reverse.dropWhile (· == '0')).reverse = kept
  -- what is cut off at the end is zeros only
  have hzeros : (all.reverse.takeWhile (· == '0')).reverse =
      List.replicate (all.reverse.takeWhile (· == '0')).length '0' := by
    refine List.eq_replicate_iff.mpr ⟨List.length_reverse, fun c hc => ?_⟩
    have hall := List.all_eq_true.mp (List.all_takeWhile (p := (· == '0')) (l := all.reverse))
    simpa using hall c (List.mem_reverse.mp hc)
  generalize (all.reverse.takeWhile (· == '0')).length = k at hzeros
  have hsplit : all = kept ++ List.replicate k '0' := by
    have hreverse := List.takeWhile_append_dropWhile (p := (· == '0')) (l := all.reverse)
    have hall := congrArg List.reverse hreverse
    rw [List.reverse_append, hkept, hzeros, List.reverse_reverse] at hall
    exact hall.symm
  rw [hsplit, List.length_append, List.length_replicate] at hlength
  rw [hsplit, Text.digitsValue_zeros] at hvalue
  refine ⟨kept, fun c hc => hdigit c (hsplit ▸ List.mem_append_left _ hc), by omega, ?_, ?_⟩
  · rw [show 9 - kept.length = k by omega]
    exact hvalue
  · cases kept with
    | nil => rfl
    | cons c rest => rfl

theorem readFraction_fractionText {nanos : Nat} (h : nanos < 1000000000) {x : List Char}
    (hx : ∀ c, x.head? = some c → Text.isDigit c = false ∧ c ≠ '.' ∧ c ≠ ',') :
    readFraction (fractionText nanos ++ x) = (nanos, x) := by
  obtain ⟨digits, hdigits, hlength, hvalue, htext⟩ := exists_decimals h
  obtain ⟨htake, hdrop⟩ := Json.takeWhile_of_noDigit fun c hc => (hx c hc).1
  rw [htext]
  split
  · -- without decimals there are no nanoseconds, and the next character is no mark of them
    rename_i hnil
    rw [hnil] at hvalue
    obtain rfl : nanos = 0 := by simpa [Text.digitsValue] using hvalue.symm
    cases x with
    | nil => rfl
    | cons c x =>
        obtain ⟨-, hpoint, hcomma⟩ := hx c rfl
        simp [readFraction, hpoint, hcomma]
  · rename_i hne
    have htake : (digits ++ x).takeWhile Text.isDigit = digits := by
      rw [List.takeWhile_append_of_pos hdigits, htake, List.append_nil]
    have hdrop : (digits ++ x).dropWhile Text.isDigit = x := by
      rw [List.dropWhile_append_of_pos hdigits, hdrop]
    have hnine : digits.take 9 = digits := List.take_of_length_le hlength
    rw [List.cons_append, readFraction]
    simp only [htake, hdrop, hnine, true_or, hne, ne_eq, not_false_eq_true, and_self, if_true]
    exact congrArg (·, x) hvalue

/-! ## Times read back -/

theorem zoneText_head (offset : Int) (c : Char) (h : (zoneText offset).head? = some c) :
    Text.isDigit c = false ∧ c ≠ '.' ∧ c ≠ ',' := by
  unfold zoneText at h
  split at h
  · obtain rfl := Option.some.inj h
    decide
  · obtain rfl := Option.some.inj h
    split <;> decide

/-- **What is written is read back.** -/
theorem parse?_text {t : Timestamp} (ht : t.IsReal) (hnear : t.IsNear) :
    parse? (text t) = some t := by
  have hdays := daysIn_le t.year t.month
  obtain ⟨hyear, hmonth, hday, hhour, hminute, hsecond, hnanos⟩ := ht
  have htwo (n : Nat) (h : n < 100) (x : List Char) :
      readFixed 2 (Text.padded 2 n ++ x) = some (n, x) := readFixed_padded (by decide) h x
  have hfraction := readFraction_fractionText hnanos (zoneText_head t.offset)
  have hzone := readZone_zoneText hnear
  simp only [text, dateText, clockText, List.append_assoc, List.cons_append]
  rw [parse?, readFixed_padded (by decide) (Nat.lt_succ_of_le hyear)]
  simp only [bind, Option.bind, expect_cons, htwo t.month (by omega), htwo t.day (by omega),
    readOneOrTwo_padded (n := t.hour) (by omega), htwo t.minute (by omega),
    htwo t.second (by omega), hfraction, hzone]
  exact if_pos ⟨hmonth.1, hmonth.2, hday.1, hday.2, hhour, hminute, hsecond⟩

/-! ## Times that were read -/

theorem lt_of_readFixed {width n : Nat} {s rest : List Char}
    (h : readFixed width s = some (n, rest)) : n < 10 ^ width := by
  unfold readFixed at h
  simp only at h
  split at h
  · rename_i hdigits
    obtain ⟨rfl, -⟩ := Prod.mk.inj (Option.some.inj h)
    have hlt := Text.digitsValue_lt (List.all_eq_true.mp hdigits.2)
    rwa [hdigits.1] at hlt
  · cases h

theorem readFraction_lt (s : List Char) : (readFraction s).1 < 1000000000 := by
  unfold readFraction
  split
  · rename_i c rest
    simp only
    split
    · have hdigits : ∀ c ∈ (rest.takeWhile Text.isDigit).take 9, Text.isDigit c = true :=
        fun c hc => List.all_eq_true.mp List.all_takeWhile c (List.mem_of_mem_take hc)
      have hlength : ((rest.takeWhile Text.isDigit).take 9).length ≤ 9 := List.length_take_le _ _
      generalize (rest.takeWhile Text.isDigit).take 9 = nine at hdigits hlength
      -- the decimals that were read and those that are missing make nine
      have hpow : 10 ^ nine.length * 10 ^ (9 - nine.length) = 1000000000 := by
        rw [← Nat.pow_add, show nine.length + (9 - nine.length) = 9 by omega]
      exact hpow ▸ Nat.mul_lt_mul_of_pos_right (Text.digitsValue_lt hdigits)
        (Nat.pow_pos (by decide))
    · exact Nat.zero_lt_succ _
  · exact Nat.zero_lt_succ _

/-- What is read is a date and a time of day. -/
theorem isReal_of_parse {s : List Char} {t : Timestamp} (h : parse? s = some t) : t.IsReal := by
  simp only [parse?, bind, Option.bind_eq_some_iff, Prod.exists] at h
  obtain ⟨year, s1, hyear, s2, -, month, s3, -, s4, -, day, s5, -, s6, -, hour, s7, -, s8, -,
    minute, s9, -, s10, -, second, s11, -, offset, -, h⟩ := h
  exact isReal_of_ofDate? (Nat.le_of_lt_succ (lt_of_readFixed hyear)) (readFraction_lt s11) h

/-! ## Times in JSON texts -/

/-- The characters of a time: digits and the marks between them. -/
def IsTimeChar (c : Char) : Prop :=
  Text.isDigit c = true ∨ c ∈ ['-', 'T', ':', '.', 'Z', '+']

theorem isTimeChar_of_mem_text {t : Timestamp} (ht : t.IsReal) : ∀ c ∈ text t, IsTimeChar c := by
  have hpadded (width n : Nat) : ∀ c ∈ Text.padded width n, IsTimeChar c :=
    fun c hc => .inl (Text.isDigit_of_mem_padded hc)
  have hmark {c : Char} (hc : c ∈ ['-', 'T', ':', '.', 'Z', '+']) : IsTimeChar c := .inr hc
  have hfraction : ∀ c ∈ fractionText t.nanos, IsTimeChar c := by
    obtain ⟨digits, hdigits, -, -, htext⟩ := exists_decimals ht.nanos
    rw [htext]
    split
    · simp
    · exact List.forall_mem_cons.mpr ⟨hmark (by decide), fun c hc => .inl (hdigits c hc)⟩
  have hzone : ∀ c ∈ zoneText t.offset, IsTimeChar c := by
    unfold zoneText
    split
    · exact List.forall_mem_singleton.mpr (hmark (by decide))
    · simp only [List.cons_append, List.forall_mem_cons, List.forall_mem_append]
      exact ⟨by split <;> exact hmark (by decide), hpadded _ _, hmark (by decide), hpadded _ _⟩
  simp only [text, dateText, clockText, List.forall_mem_append, List.forall_mem_cons]
  have hdash := hmark (c := '-') (by decide)
  have hcolon := hmark (c := ':') (by decide)
  exact ⟨⟨⟨⟨⟨⟨hpadded _ _, hdash, hpadded _ _⟩, hdash, hpadded _ _⟩, hmark (by decide),
    hpadded _ _, hcolon, hpadded _ _⟩, hcolon, hpadded _ _⟩, hfraction⟩, hzone⟩

theorem IsTimeChar.plain {c : Char} (h : IsTimeChar c) :
    c ≠ '"' ∧ c ≠ '\\' ∧ 0x20 ≤ c.toNat := by
  rcases h with hdigit | hmark
  · refine ⟨?_, ?_, ?_⟩
    · rintro rfl
      revert hdigit
      decide
    · rintro rfl
      revert hdigit
      decide
    · simp only [Text.isDigit, Bool.and_eq_true, decide_eq_true_eq] at hdigit
      omega
  · simp only [List.mem_cons, List.not_mem_nil, or_false] at hmark
    rcases hmark with rfl | rfl | rfl | rfl | rfl | rfl <;> decide

/-- A time that can be written is a string in a JSON text. -/
theorem reads_json {t : Timestamp} (ht : t.IsReal) {s : List Char} (h : t.json? = some s)
    (n : Nat) : Json.Reads n s := by
  unfold json? at h
  split at h
  case isFalse => cases h
  obtain rfl := Option.some.inj h
  have hplain := fun c hc => (isTimeChar_of_mem_text ht c hc).plain
  refine Json.reads_string n (show Json.Spells (text t) ((text t).map Char.toNat) from ?_)
  generalize text t = s at hplain
  induction s with
  | nil => exact .nil
  | cons c s ih =>
      obtain ⟨hquote, hslash, hlow⟩ := hplain c List.mem_cons_self
      exact .plain hquote hslash hlow (ih fun d hd => hplain d (List.mem_cons_of_mem _ hd))

theorem json?_isSome_iff (t : Timestamp) : (∃ s, t.json? = some s) ↔ t.IsNear := by
  unfold json? IsNear
  split <;> simp [*]

/-- A time that can be written is decoded as it was. -/
theorem prints {t : Timestamp} (ht : t.IsReal) {s : List Char} (h : t.json? = some s)
    (old : Timestamp) {n : Nat} : Json.Prints n fill old s t := by
  refine ⟨reads_json ht h n, ?_⟩
  have hnear := (json?_isSome_iff t).mp ⟨s, h⟩
  rw [json?, if_pos (by exact hnear)] at h
  obtain rfl := Option.some.inj h
  have hnull : Json.isNullText ('"' :: text t ++ ['"']) = false := rfl
  unfold fill
  rw [hnull]
  simp only [List.cons_append, Bool.false_eq_true, if_false, List.dropLast_concat,
    parse?_text ht hnear]

/-- Whatever is decoded, the time stays one of the calendar. -/
theorem keeps {n : Nat} : Json.Keeps n IsReal fill := by
  intro old s _ hold
  unfold fill
  split
  · exact hold
  · split
    · split
      · rename_i hparse
        exact isReal_of_parse hparse
      · exact isReal_zero
    · exact hold

end ReviewQueue.Timestamp
