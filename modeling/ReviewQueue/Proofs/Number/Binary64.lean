import Mathlib.Data.List.TakeWhile
import ReviewQueue.Number.Binary64
import ReviewQueue.Proofs.Text.Decimal

/-!
# Integers as floating-point numbers

A numeral of at most `2 ^ 53` is read as exactly its integer, and cutting that toward zero gives the
integer back (`carried?_of_le`).
-/

namespace ReviewQueue.Binary64

/-- The greatest integer up to which all integers are floating-point numbers, `2 ^ 53`. -/
def exactMax : Nat := 9007199254740992

/-- The integer that the numeral of an integer is read as, through a floating-point number. -/
def carried? (n : Int) : Option Int := (ofSpelling? (Text.numeral n)).map truncate

/-! ## Reading a numeral -/

theorem splitAt?_of_forall {p : Char → Bool} {s : List Char} (h : ∀ c ∈ s, p c = false) :
    splitAt? p s = (s, none) := by
  have hnone : s.dropWhile (fun c => !p c) = [] := by
    rw [List.dropWhile_eq_nil_iff]
    intro c hc
    rw [h c hc]
    rfl
  rw [splitAt?, hnone]

theorem isDigit_not_mark {c : Char} (h : Text.isDigit c = true) :
    (c == 'e' || c == 'E') = false ∧ (c == '.') = false := by
  have hne (mark : Char) (hmark : Text.isDigit mark = false) : (c == mark) = false := by
    rw [beq_eq_false_iff_ne]
    rintro rfl
    rw [h] at hmark
    cases hmark
  rw [hne 'e' (by decide), hne 'E' (by decide), hne '.' (by decide)]
  exact ⟨rfl, rfl⟩

/-- Reads a spelling behind its sign. -/
def ofUnsigned? (negative : Bool) (s : List Char) : Option Binary64 := do
  let (number, exponent) := splitAt? (fun c => c == 'e' || c == 'E') s
  let (whole, fraction) := splitAt? (· == '.') number
  let fraction := fraction.getD []
  let digits ← Text.readDigits? (whole ++ fraction)
  let power : Int ←
    match exponent with
    | none => some 0
    | some ('-' :: e) => (Text.readDigits? e).map fun n => -(n : Int)
    | some ('+' :: e) => (Text.readDigits? e).map fun n => (n : Int)
    | some e => (Text.readDigits? e).map fun n => (n : Int)
  return ofDecimal negative digits (power - fraction.length)

theorem ofSpelling?_minus (rest : List Char) :
    ofSpelling? ('-' :: rest) = ofUnsigned? true rest := rfl

theorem ofSpelling?_cons {c : Char} (h : c ≠ '-' ∧ c ≠ '+') (rest : List Char) :
    ofSpelling? (c :: rest) = ofUnsigned? false (c :: rest) := by
  unfold ofSpelling?
  split
  rename_i heq
  split at heq
  · rename_i heq'
    exact absurd (List.cons.inj heq').1 h.1
  · rename_i heq'
    exact absurd (List.cons.inj heq').1 h.2
  · obtain ⟨rfl, rfl⟩ := Prod.mk.inj heq
    rfl

theorem ofUnsigned?_decimal (negative : Bool) (n : Nat) :
    ofUnsigned? negative (Text.decimal n) = some (ofDecimal negative n 0) := by
  have hdigit : ∀ c ∈ Text.decimal n, Text.isDigit c = true :=
    fun c hc => Text.isDigit_of_mem_decimal hc
  unfold ofUnsigned?
  rw [splitAt?_of_forall fun c hc => (isDigit_not_mark (hdigit c hc)).1]
  simp only
  rw [splitAt?_of_forall fun c hc => (isDigit_not_mark (hdigit c hc)).2]
  simp [Text.readDigits?_decimal]

theorem ofSpelling?_numeral (n : Int) :
    ofSpelling? (Text.numeral n) = some (ofDecimal (decide (n < 0)) n.natAbs 0) := by
  unfold Text.numeral
  by_cases hn : n < 0
  · rw [if_pos hn, decide_eq_true hn, ofSpelling?_minus, ofUnsigned?_decimal]
  · rw [if_neg hn, decide_eq_false hn, ← ofUnsigned?_decimal]
    -- the first digit is not a sign
    obtain ⟨c, rest, hdecimal⟩ := List.exists_cons_of_ne_nil (Text.decimal_ne_nil n.natAbs)
    have hc : Text.isDigit c = true := by
      apply Text.isDigit_of_mem_decimal (n := n.natAbs)
      rw [hdecimal]
      exact List.mem_cons_self
    rw [hdecimal, ofSpelling?_cons (Text.not_sign_of_isDigit hc)]

/-! ## Rounding nothing -/

theorem roundQuotient_one (n : Nat) : roundQuotient n 1 = n := by
  simp [roundQuotient, Nat.mod_one]

theorem scaledMantissa_one (n : Nat) {exponent : Int} (h : exponent ≤ 0) :
    scaledMantissa n 1 exponent = n * 2 ^ exponent.natAbs := by
  unfold scaledMantissa
  split
  · exact roundQuotient_one _
  · obtain rfl : exponent = 0 := by omega
    simp [roundQuotient_one]

/-- A number of at most 53 binary digits is scaled up until it has 53 of them. -/
theorem ofQuotient_one {n : Nat} (hpos : 0 < n) (hlt : n < 2 ^ 53) (negative : Bool) :
    ofQuotient negative n 1 =
      .finite negative (n * 2 ^ (52 - n.log2)) (-((52 - n.log2 : Nat) : Int)) := by
  have hlog : n.log2 < 53 := (Nat.log2_lt (by omega)).mpr hlt
  have hbelow : 2 ^ n.log2 ≤ n := Nat.log2_self_le (by omega)
  have habove : n < 2 ^ (n.log2 + 1) := Nat.lt_log2_self
  have hwide : ¬ n * 2 ^ (53 - n.log2) < 2 ^ 53 := by
    rw [Nat.not_lt]
    calc 2 ^ 53 = 2 ^ n.log2 * 2 ^ (53 - n.log2) := by rw [← Nat.pow_add]; congr 1; omega
      _ ≤ n * 2 ^ (53 - n.log2) := Nat.mul_le_mul_right _ hbelow
  have hmantissa : n * 2 ^ (52 - n.log2) < 2 ^ 53 := by
    calc n * 2 ^ (52 - n.log2) < 2 ^ (n.log2 + 1) * 2 ^ (52 - n.log2) :=
          Nat.mul_lt_mul_of_pos_right habove (Nat.two_pow_pos _)
      _ = 2 ^ 53 := by rw [← Nat.pow_add]; congr 1; omega
  -- the guess is one too low, so that the exponent is the one after it
  have hguess : (n.log2 : Int) - Nat.log2 1 - 53 = -((53 - n.log2 : Nat) : Int) := by
    rw [show Nat.log2 1 = 0 by decide]
    omega
  have hexponent : max minExponent (-((53 - n.log2 : Nat) : Int) + 1) =
      -((52 - n.log2 : Nat) : Int) := by
    unfold minExponent
    omega
  have hnegative : -((53 - n.log2 : Nat) : Int) < 0 := by omega
  have hfinite : ¬ maxExponent < -((52 - n.log2 : Nat) : Int) := by
    unfold maxExponent
    omega
  unfold ofQuotient
  rw [hguess]
  simp only [if_pos hnegative, Int.natAbs_neg, Int.natAbs_natCast, Nat.div_one, Nat.pow_eq,
    if_neg hwide, hexponent]
  rw [scaledMantissa_one n (by omega), Int.natAbs_neg, Int.natAbs_natCast,
    if_neg (Nat.ne_of_lt hmantissa)]
  simp only [if_neg hfinite]

theorem truncate_ofQuotient {n : Nat} (hpos : 0 < n) (hle : n ≤ exactMax) (negative : Bool) :
    (ofQuotient negative n 1).truncate = if negative then -(n : Int) else n := by
  have hfits : fitsWord (if negative then -(n : Int) else n) = true := by
    unfold exactMax at hle
    unfold fitsWord wordMin wordMax
    cases negative <;> simp <;> omega
  rcases Nat.lt_or_eq_of_le hle with hlt | rfl
  · rw [ofQuotient_one hpos hlt]
    have hvalue : (if -((52 - n.log2 : Nat) : Int) < 0
        then n * 2 ^ (52 - n.log2) / Nat.pow 2 (-((52 - n.log2 : Nat) : Int)).natAbs
        else n * 2 ^ (52 - n.log2) * Nat.pow 2 (-((52 - n.log2 : Nat) : Int)).natAbs) = n := by
      rw [Int.natAbs_neg, Int.natAbs_natCast]
      split
      · exact Nat.mul_div_cancel _ (Nat.two_pow_pos _)
      · rw [show 52 - n.log2 = 0 by omega]
        simp
    unfold truncate
    simp only [hvalue, hfits, if_true]
  · cases negative <;> decide +kernel

/-- **Integers up to `2 ^ 53` are read exactly.** -/
theorem carried?_of_le {n : Int} (h : n.natAbs ≤ exactMax) : carried? n = some n := by
  have hlength : (Text.decimal n.natAbs).length ≤ 16 :=
    Text.length_decimal_le (by decide) (by unfold exactMax at h; omega)
  have hpos := List.length_pos_iff.mpr (Text.decimal_ne_nil n.natAbs)
  unfold carried?
  rw [ofSpelling?_numeral, Option.map_some, ofDecimal]
  congr 1
  by_cases hzero : n.natAbs = 0
  · obtain rfl := Int.natAbs_eq_zero.mp hzero
    decide
  · rw [if_neg hzero, if_neg (by omega), if_neg (by omega), if_neg (by omega)]
    rw [show n.natAbs * Nat.pow 10 (Int.natAbs 0) = n.natAbs by simp,
      truncate_ofQuotient (by omega) h]
    by_cases hn : n < 0
    · rw [decide_eq_true hn, if_pos rfl]
      omega
    · rw [decide_eq_false hn, if_neg Bool.false_ne_true]
      omega

end ReviewQueue.Binary64
