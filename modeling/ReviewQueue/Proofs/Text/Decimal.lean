import Mathlib.Algebra.Group.Nat.Defs
import Mathlib.Data.List.Induction
import ReviewQueue.Proofs.Text.Numeral

/-!
# Decimal texts read back

The text of a number is a run of digits whose value is the number, without a leading zero. Padding
it adds zeros that change no value. What is written is therefore read as what it was, as long as it
fits a word.
-/

namespace ReviewQueue.Text

/-! ## Digits -/

theorem toNat_digitChar {d : Nat} (h : d < 10) : (digitChar d).toNat = 48 + d := by
  have hvalid : (48 + d).isValidChar := by
    left
    omega
  unfold digitChar Char.ofNat
  rw [dif_pos hvalid]
  rfl

theorem isDigit_digitChar {d : Nat} (h : d < 10) : isDigit (digitChar d) = true := by
  unfold isDigit
  rw [toNat_digitChar h]
  simp
  omega

theorem digitValue_digitChar {d : Nat} (h : d < 10) : digitValue (digitChar d) = d := by
  unfold digitValue
  rw [toNat_digitChar h]
  omega

theorem digitsValue_append (s t : List Char) :
    digitsValue (s ++ t) = t.foldl (fun acc c => 10 * acc + digitValue c) (digitsValue s) := by
  unfold digitsValue
  rw [List.foldl_append]

theorem digitsValue_concat (s : List Char) (c : Char) :
    digitsValue (s ++ [c]) = 10 * digitsValue s + digitValue c :=
  digitsValue_append s [c]

/-- Digits weigh by how many follow them. -/
theorem digitsValue_shift (s t : List Char) :
    digitsValue (s ++ t) = digitsValue s * 10 ^ t.length + digitsValue t := by
  induction t using List.reverseRecOn with
  | nil => simp [digitsValue]
  | append_singleton t c ih =>
      rw [← List.append_assoc, digitsValue_concat, ih, digitsValue_concat, List.length_append,
        List.length_singleton, Nat.pow_succ, ← Nat.mul_assoc]
      omega

theorem digitsValue_cons (c : Char) (s : List Char) :
    digitsValue (c :: s) = digitValue c * 10 ^ s.length + digitsValue s := by
  have hshift := digitsValue_shift [c] s
  simpa [digitsValue] using hshift

theorem digitValue_le {c : Char} (h : isDigit c = true) : digitValue c ≤ 9 := by
  simp only [isDigit, Bool.and_eq_true, decide_eq_true_eq] at h
  unfold digitValue
  omega

theorem digitsValue_lt {s : List Char} (h : ∀ c ∈ s, isDigit c = true) :
    digitsValue s < 10 ^ s.length := by
  induction s using List.reverseRecOn with
  | nil => decide
  | append_singleton s c ih =>
      have hs := ih fun d hd => h d (List.mem_append_left _ hd)
      have hc := digitValue_le (h c (List.mem_append_right _ List.mem_cons_self))
      rw [digitsValue_concat, List.length_append, List.length_singleton, Nat.pow_succ]
      omega

theorem digitsValue_zeros (s : List Char) (k : Nat) :
    digitsValue (s ++ List.replicate k '0') = digitsValue s * 10 ^ k := by
  induction k with
  | zero => simp
  | succ k ih =>
      rw [List.replicate_succ', ← List.append_assoc, digitsValue_concat, ih, Nat.pow_succ,
        show digitValue '0' = 0 from rfl, Nat.add_zero, Nat.mul_comm 10, Nat.mul_assoc]

/-! ## The digits of a number -/

theorem decimal_ne_nil (n : Nat) : decimal n ≠ [] := by
  rw [decimal]
  split <;> simp

theorem isDigit_of_mem_decimal {n : Nat} {c : Char} (h : c ∈ decimal n) : isDigit c = true := by
  fun_induction decimal n with
  | case1 n hn =>
      rw [List.mem_singleton.mp h]
      exact isDigit_digitChar hn
  | case2 n hn ih =>
      rcases List.mem_append.mp h with h | h
      · exact ih h
      · rw [List.mem_singleton.mp h]
        exact isDigit_digitChar (Nat.mod_lt n (by omega))

theorem digitsValue_decimal (n : Nat) : digitsValue (decimal n) = n := by
  fun_induction decimal n with
  | case1 n hn => simpa [digitsValue] using digitValue_digitChar hn
  | case2 n hn ih =>
      rw [digitsValue_concat, ih, digitValue_digitChar (Nat.mod_lt n (by omega))]
      omega

/-- Only zero starts with a zero. -/
theorem head?_decimal_ne_zero {n : Nat} (h : n ≠ 0) : (decimal n).head? ≠ some '0' := by
  fun_induction decimal n with
  | case1 n hn =>
      intro hhead
      have hvalue := congrArg digitValue (Option.some.inj hhead)
      rw [digitValue_digitChar hn] at hvalue
      exact h hvalue
  | case2 n hn ih =>
      have hfirst := ih (by omega)
      obtain ⟨c, rest, hdecimal⟩ := List.exists_cons_of_ne_nil (decimal_ne_nil (n / 10))
      rw [hdecimal] at hfirst ⊢
      exact hfirst

theorem decimal_zero : decimal 0 = ['0'] := by
  rw [decimal]
  rfl

theorem length_decimal_le {n width : Nat} (hwidth : 0 < width) (h : n < 10 ^ width) :
    (decimal n).length ≤ width := by
  induction width generalizing n with
  | zero => omega
  | succ width ih =>
      rw [decimal]
      split
      · simp
      · rename_i hn
        have hpow : 10 ^ (width + 1) = 10 * 10 ^ width := by rw [Nat.pow_succ, Nat.mul_comm]
        have hwidth : 0 < width := by
          rcases Nat.eq_zero_or_pos width with rfl | hpos
          · simp at h
            omega
          · exact hpos
        have hrest := ih hwidth (n := n / 10) (by omega)
        simp only [List.length_append, List.length_cons, List.length_nil]
        omega

/-! ## Padding -/

theorem isDigit_of_mem_padded {width n : Nat} {c : Char} (h : c ∈ padded width n) :
    isDigit c = true := by
  unfold padded at h
  rcases List.mem_append.mp h with h | h
  · rw [List.eq_of_mem_replicate h]
    decide
  · exact isDigit_of_mem_decimal h

theorem length_padded {width n : Nat} (hwidth : 0 < width) (h : n < 10 ^ width) :
    (padded width n).length = width := by
  have hle := length_decimal_le hwidth h
  simp only [padded, List.length_append, List.length_replicate]
  omega

theorem digitsValue_padded (width n : Nat) : digitsValue (padded width n) = n := by
  have hzeros (k : Nat) : digitsValue (List.replicate k '0') = 0 := by
    have hvalue := digitsValue_zeros [] k
    rwa [List.nil_append, show digitsValue [] = 0 from rfl, Nat.zero_mul] at hvalue
  have hdecimal := digitsValue_decimal n
  unfold padded
  rw [digitsValue_append, hzeros]
  exact hdecimal

/-! ## Numerals -/

theorem readDigits?_decimal (n : Nat) : readDigits? (decimal n) = some n :=
  (readDigits?_eq_some_iff _ _).mpr
    ⟨decimal_ne_nil n, fun _ h => isDigit_of_mem_decimal h, digitsValue_decimal n⟩

/-- The text of an integer is read as that integer when it fits, and is refused otherwise. -/
theorem readNumeral_numeral (n : Int) :
    readNumeral (numeral n) = if fitsWord n then .ok n else .error .outOfRange := by
  unfold numeral
  split
  · have hvalue : -(n.natAbs : Int) = n := by omega
    rw [readNumeral_minus, readNegative, readDigits?_decimal]
    simp only [hvalue]
  · have hvalue : (n.natAbs : Int) = n := by omega
    obtain ⟨c, rest, hdecimal⟩ := List.exists_cons_of_ne_nil (decimal_ne_nil n.natAbs)
    have hc : isDigit c = true := isDigit_of_mem_decimal (n := n.natAbs) (by simp [hdecimal])
    have hdigits := readDigits?_decimal n.natAbs
    rw [hdecimal] at hdigits ⊢
    rw [readNumeral_cons (not_sign_of_isDigit hc), readUnsigned, hdigits]
    simp only [hvalue]

/-- What is read as an integer fits a word. -/
theorem fitsWord_of_readNumeral {s : List Char} {n : Int} (h : readNumeral s = .ok n) :
    fitsWord n = true := by
  unfold readNumeral at h
  -- the sign, the digits, and the range
  split at h
  rename_i negative digits _
  split at h
  · cases h
  · rename_i m _
    simp only at h
    generalize (if negative then -(m : Int) else (m : Int)) = value at h
    split at h
    · rename_i hfits
      obtain rfl := Except.ok.inj h
      exact hfits
    · cases h

theorem toInt?_ofInt {n : Int} (h : fitsWord n = true) : toInt? (ofInt n) = some n := by
  unfold toInt? ofInt
  rw [String.toList_ofList, readNumeral_numeral, if_pos h]

/-- Nothing but that integer is read from the text of an integer. -/
theorem eq_of_toInt?_ofInt {n m : Int} (h : toInt? (ofInt n) = some m) : n = m := by
  unfold toInt? ofInt at h
  rw [String.toList_ofList, readNumeral_numeral] at h
  by_cases hfits : fitsWord n = true
  · rw [if_pos hfits] at h
    exact Option.some.inj h
  · rw [if_neg hfits] at h
    cases h

/-- The characters of a numeral. -/
theorem mem_numeral {n : Int} {c : Char} (h : c ∈ numeral n) : c = '-' ∨ isDigit c = true := by
  unfold numeral at h
  split at h
  · rcases List.mem_cons.mp h with h | h
    · exact .inl h
    · exact .inr (isDigit_of_mem_decimal h)
  · exact .inr (isDigit_of_mem_decimal h)

theorem numeral_ne_nil (n : Int) : numeral n ≠ [] := by
  unfold numeral
  split
  · simp
  · exact decimal_ne_nil _

end ReviewQueue.Text
