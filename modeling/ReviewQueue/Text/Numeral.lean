/-! Decimal numerals: the text of an integer, and the reading of one.

A numeral that is read has an optional sign and at least one ASCII digit, and its value must fit a
signed word of 64 bits. -/

namespace ReviewQueue

/-- The least integer of a signed 64-bit word. -/
def wordMin : Int := -9223372036854775808

/-- The greatest integer of a signed 64-bit word. -/
def wordMax : Int := 9223372036854775807

/-- Whether an integer fits a signed 64-bit word. -/
def fitsWord (n : Int) : Bool :=
  decide (wordMin ≤ n) && decide (n ≤ wordMax)

/-- The signed 64-bit word that an integer wraps to. -/
def wrapWord (n : Int) : Int :=
  Int.bmod n 18446744073709551616

namespace Text

/-- The character of a decimal digit. -/
def digitChar (d : Nat) : Char :=
  Char.ofNat (48 + d)

/-- Whether a character is an ASCII digit. -/
def isDigit (c : Char) : Bool :=
  decide (48 ≤ c.toNat) && decide (c.toNat ≤ 57)

/-- The value of a digit character. -/
def digitValue (c : Char) : Nat :=
  c.toNat - 48

/-- The decimal digits of a natural number, without leading zeros. -/
def decimal (n : Nat) : List Char :=
  if n < 10 then [digitChar n] else decimal (n / 10) ++ [digitChar (n % 10)]
termination_by n

/-- The value of a run of digits. -/
def digitsValue (s : List Char) : Nat :=
  s.foldl (fun acc c => 10 * acc + digitValue c) 0

/-- The decimal text of an integer. -/
def numeral (n : Int) : List Char :=
  if n < 0 then '-' :: decimal n.natAbs else decimal n.natAbs

/-- The decimal text of an integer, as a string. -/
def ofInt (n : Int) : String :=
  .ofList (numeral n)

/-- The decimal text of a natural number, as a string. -/
def ofNat (n : Nat) : String :=
  .ofList (decimal n)

/-- A decimal number padded with zeros on the left to a width. -/
def padded (width n : Nat) : List Char :=
  let d := decimal n
  List.replicate (width - d.length) '0' ++ d

/-- Reads an unsigned run of digits, which must not be empty. -/
def readDigits? (s : List Char) : Option Nat :=
  if s.isEmpty || !s.all isDigit then none else some (digitsValue s)

/-- Why a numeral was refused: it is no numeral, or it does not fit. -/
inductive NumeralError where
  | malformed
  | outOfRange
  deriving DecidableEq, Repr

/-- The wording of a refusal. -/
def NumeralError.message : NumeralError → String
  | .malformed => "invalid syntax"
  | .outOfRange => "value out of range"

/-- Reads a numeral with an optional sign that fits a signed 64-bit word. -/
def readNumeral (s : List Char) : Except NumeralError Int :=
  let (negative, digits) :=
    match s with
    | '-' :: rest => (true, rest)
    | '+' :: rest => (false, rest)
    | _ => (false, s)
  match readDigits? digits with
  | none => .error .malformed
  | some n =>
    let v : Int := if negative then -n else n
    if fitsWord v then .ok v else .error .outOfRange

/-- Reads a numeral, without the reason of a refusal. -/
def toInt? (s : String) : Option Int :=
  match readNumeral s.toList with
  | .ok n => some n
  | .error _ => none

end Text
end ReviewQueue
