import Mathlib.Data.Nat.ModEq
import ReviewQueue.Number.Literal
import ReviewQueue.Proofs.Json.Spelling
import ReviewQueue.Proofs.Text.Decimal

/-! # Literals read back

Digits are read in the base that they are written in, hexadecimal ones of an escape as well as
decimal ones of a numeral.

* `digits?_hex` — the hexadecimal digits of a number are read as that number
* `digits?_decimal` — so are its decimal digits
* `read?_numeral` — a numeral that fits a word is read as its integer
-/

namespace ReviewQueue.Literal

open Text

/-- Reads one more digit. -/
def addDigit (base : Nat) (acc : Option Nat) (c : Char) : Option Nat := do
  return base * (← acc) + (← digit? base c)

theorem digits?_eq_foldl (base : Nat) {s : List Char} (h : s ≠ []) :
    digits? base s = s.foldl (addDigit base) (some 0) := by
  rw [digits?, List.isEmpty_eq_false_iff.mpr h]
  rfl

theorem addDigit_some {base d : Nat} {c : Char} (h : digit? base c = some d) (acc : Nat) :
    addDigit base (some acc) c = some (base * acc + d) := by
  rw [addDigit, h]
  rfl

/-! ## Hexadecimal digits -/

theorem length_hex (width n : Nat) : (hex width n).length = width := by
  induction width generalizing n with
  | zero => rfl
  | succ width ih => rw [hex, List.length_append, ih, List.length_singleton]

theorem digit?_hexDigit {d : Nat} (h : d < 16) : digit? 16 (hexDigit d) = some d := by
  rw [digit?, Json.hexValue?_hexDigit h]
  simp only [Option.filter_some, h, decide_true, if_true]

/-- The digits hold what is left of a number after the powers that they have no place for. -/
theorem foldl_addDigit_hex (width n : Nat) :
    (hex width n).foldl (addDigit 16) (some 0) = some (n % 16 ^ width) := by
  induction width generalizing n with
  | zero =>
      rw [pow_zero, Nat.mod_one]
      rfl
  | succ width ih =>
      -- the last digit is what is left by sixteen, and those before it are the digits of the rest
      have hdigit := digit?_hexDigit (Nat.mod_lt n (show 16 > 0 by decide))
      rw [hex, List.foldl_append, ih, List.foldl_cons, List.foldl_nil, addDigit_some hdigit,
        pow_succ', Nat.mod_mul, Nat.add_comm]

theorem digits?_hex {width n : Nat} (hwidth : width ≠ 0) (h : n < 16 ^ width) :
    digits? 16 (hex width n) = some n := by
  have hne : hex width n ≠ [] := by
    rw [← List.length_pos_iff, length_hex]
    omega
  rw [digits?_eq_foldl 16 hne, foldl_addDigit_hex, Nat.mod_eq_of_lt h]

/-! ## Decimal digits -/

theorem digit?_of_isDigit {c : Char} (h : isDigit c = true) :
    digit? 10 c = some (digitValue c) := by
  have hlt := digitValue_le h
  simp only [isDigit, Bool.and_eq_true, decide_eq_true_eq] at h
  rw [digit?, Json.hexValue?, if_pos h]
  exact if_pos (decide_eq_true (Nat.lt_succ_of_le hlt))

theorem foldl_addDigit_decimal {s : List Char} (h : ∀ c ∈ s, isDigit c = true) (acc : Nat) :
    s.foldl (addDigit 10) (some acc) =
      some (s.foldl (fun acc c => 10 * acc + digitValue c) acc) := by
  induction s generalizing acc with
  | nil => rfl
  | cons c s ih =>
      rw [List.foldl_cons, addDigit_some (digit?_of_isDigit (h c List.mem_cons_self)),
        ih (fun d hd => h d (List.mem_cons_of_mem c hd)), List.foldl_cons]

theorem digits?_decimal (n : Nat) : digits? 10 (decimal n) = some n := by
  rw [digits?_eq_foldl 10 (decimal_ne_nil n),
    foldl_addDigit_decimal (fun c hc => isDigit_of_mem_decimal hc)]
  exact congrArg some (digitsValue_decimal n)

/-! ## Numerals -/

/-- Decimal digits are no digits of another base: only zero starts with a zero, and nothing follows
it. -/
theorem splitBase_decimal (n : Nat) : splitBase (decimal n) = (10, decimal n) := by
  by_cases hzero : n = 0
  · rw [hzero, decimal_zero]
    rfl
  · have hfirst := head?_decimal_ne_zero hzero
    unfold splitBase
    split
    · rename_i heq
      rw [heq] at hfirst
      exact absurd rfl hfirst
    · rfl

theorem splitSign_numeral (n : Int) :
    splitSign (numeral n) = (decide (n < 0), decimal n.natAbs) := by
  unfold numeral
  split
  · rename_i hneg
    rw [decide_eq_true hneg]
    rfl
  · rename_i hpos
    -- no sign is written, and the first digit is none
    obtain ⟨c, rest, hdecimal⟩ := List.exists_cons_of_ne_nil (decimal_ne_nil n.natAbs)
    have hc : isDigit c = true := isDigit_of_mem_decimal (n := n.natAbs) (by simp [hdecimal])
    obtain ⟨hminus, hplus⟩ := not_sign_of_isDigit hc
    rw [decide_eq_false hpos, hdecimal]
    unfold splitSign
    split
    · rename_i heq
      cases heq
      exact absurd rfl hminus
    · rename_i heq
      cases heq
      exact absurd rfl hplus
    · rfl

/-- The numeral of an integer that fits a word is read as that integer. -/
theorem read?_numeral {n : Int} (h : fitsWord n = true) : read? (numeral n) = some n := by
  have hvalue : (if decide (n < 0) = true then -(n.natAbs : Int) else (n.natAbs : Int)) = n := by
    split
    · rename_i hneg
      have := of_decide_eq_true hneg
      omega
    · rename_i hpos
      have : ¬ n < 0 := fun hneg => hpos (decide_eq_true hneg)
      omega
  simp only [read?, splitSign_numeral, splitBase_decimal, digits?_decimal, bind, Option.bind,
    hvalue, h, if_true]

end ReviewQueue.Literal
