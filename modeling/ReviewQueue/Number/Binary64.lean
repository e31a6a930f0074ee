import ReviewQueue.Text.Numeral

/-! Binary floating-point numbers of 64 bits, as exact rationals.

A finite number is a mantissa below 2^53 times a power of two. `ofDecimal` rounds a decimal to the
nearest number, and `shortest` gives the fewest digits that read back as the number, the nearest of
those where there are several. Both work in exact arithmetic. -/

namespace ReviewQueue

/-- A floating-point number; a finite one is `mantissa * 2 ^ exponent` with its sign. -/
inductive Binary64 where
  | finite (negative : Bool) (mantissa : Nat) (exponent : Int)
  | infinite (negative : Bool)
  deriving DecidableEq, Repr

namespace Binary64

/-- The least exponent of a finite number. -/
def minExponent : Int := -1074

/-- The greatest exponent of a finite number. -/
def maxExponent : Int := 971

/-- A quotient rounded to the nearest integer, and to the even one where two are equally near. -/
def roundQuotient (num den : Nat) : Nat :=
  let q := num / den
  let r := num % den
  if 2 * r < den then q
  else if 2 * r = den then (if q % 2 = 0 then q else q + 1)
  else q + 1

/-- `num / den` in units of `2 ^ exponent`, rounded. -/
def scaledMantissa (num den : Nat) (exponent : Int) : Nat :=
  if exponent < 0 then roundQuotient (num * Nat.pow 2 exponent.natAbs) den
  else roundQuotient num (den * Nat.pow 2 exponent.natAbs)

/-- The number nearest to a quotient of positive integers. -/
def ofQuotient (negative : Bool) (num den : Nat) : Binary64 :=
  let guess : Int := (num.log2 : Int) - den.log2 - 53
  let wide :=
    if guess < 0 then num * Nat.pow 2 guess.natAbs / den else num / (den * Nat.pow 2 guess.natAbs)
  let exponent := max minExponent (if wide < Nat.pow 2 53 then guess else guess + 1)
  let mantissa := scaledMantissa num den exponent
  let (mantissa, exponent) :=
    if mantissa = Nat.pow 2 53 then (Nat.pow 2 52, exponent + 1) else (mantissa, exponent)
  if maxExponent < exponent then .infinite negative else .finite negative mantissa exponent

/-- The number nearest to `digits * 10 ^ exponent`. -/
def ofDecimal (negative : Bool) (digits : Nat) (exponent : Int) : Binary64 :=
  if digits = 0 then .finite negative 0 0
  else
    let size : Int := (Text.decimal digits).length + exponent
    if 400 < size then .infinite negative
    else if size < -400 then .finite negative 0 0
    else if exponent < 0 then ofQuotient negative digits (Nat.pow 10 exponent.natAbs)
    else ofQuotient negative (digits * Nat.pow 10 exponent.natAbs) 1

/-- Splits a spelling at the first character that satisfies `p`, which is dropped. -/
def splitAt? (p : Char → Bool) (s : List Char) : List Char × Option (List Char) :=
  match s.dropWhile fun c => !p c with
  | [] => (s, none)
  | _ :: rest => (s.takeWhile fun c => !p c, some rest)

/-- Reads the spelling of a decimal number with an optional fraction and exponent. -/
def ofSpelling? (s : List Char) : Option Binary64 := do
  let (negative, s) :=
    match s with
    | '-' :: rest => (true, rest)
    | '+' :: rest => (false, rest)
    | _ => (false, s)
  let (number, exponent) := splitAt? (fun c => c == 'e' || c == 'E') s
  let (whole, fraction) := splitAt? (· == '.') number
  let fraction := fraction.getD []
  let digits ← Text.readDigits? (whole ++ fraction)
  let power : Int ←
    match exponent with
    | none => some 0
    | some ('-' :: e) => (Text.readDigits? e).map fun n => -(n : Int)
    | some ('+' :: e) => (Text.readDigits? e).map fun n => (n : Int)
    | some e => (Text.readDigits? e).map fun n => (n : Int)
  return ofDecimal negative digits (power - fraction.length)

/-- The integer toward zero. What does not fit a signed 64-bit word becomes the least word. -/
def truncate (x : Binary64) : Int :=
  match x with
  | .infinite _ => wordMin
  | .finite negative mantissa exponent =>
    let n : Nat :=
      if exponent < 0 then mantissa / Nat.pow 2 exponent.natAbs
      else mantissa * Nat.pow 2 exponent.natAbs
    let v : Int := if negative then -n else n
    if fitsWord v then v else wordMin

/-! ## Shortest digits -/

/-- Compares `a * 10 ^ x` with `b * 2 ^ y`. -/
def compareScaled (a : Nat) (x : Int) (b : Nat) (y : Int) : Ordering :=
  let left := a * Nat.pow 10 x.toNat * Nat.pow 2 (-y).toNat
  let right := b * Nat.pow 2 y.toNat * Nat.pow 10 (-x).toNat
  compare left right

/-- `mantissa * 2 ^ exponent / 10 ^ x`, rounded down. -/
def floorScaled (mantissa : Nat) (exponent x : Int) : Nat :=
  (mantissa * Nat.pow 2 exponent.toNat * Nat.pow 10 (-x).toNat) /
    (Nat.pow 2 (-exponent).toNat * Nat.pow 10 x.toNat)

/-- Whether a decimal reads back as the number: it lies between the midpoints to the neighbours,
which belong to the number when its mantissa is even. -/
def readsBack (mantissa : Nat) (exponent : Int) (digits : Nat) (x : Int) : Bool :=
  let below := if mantissa = Nat.pow 2 52 ∧ minExponent < exponent then 1 else 2
  let low := compareScaled digits x (4 * mantissa - below) (exponent - 2)
  let high := compareScaled digits x (4 * mantissa + 2) (exponent - 2)
  if mantissa % 2 = 0 then low != .lt && high != .gt else low == .gt && high == .lt

/-- The nearest decimal with unit `10 ^ x` that reads back as the number. -/
def nearest? (mantissa : Nat) (exponent x : Int) : Option Nat :=
  let d := floorScaled mantissa exponent x
  let lower := readsBack mantissa exponent d x
  let upper := readsBack mantissa exponent (d + 1) x
  match lower, upper with
  | false, false => none
  | true, false => some d
  | false, true => some (d + 1)
  | true, true =>
    match compareScaled (2 * d + 1) x (2 * mantissa) exponent with
    | .lt => some (d + 1)
    | .gt => some d
    | .eq => some (if d % 2 = 0 then d else d + 1)

/-- The place of the first digit: the least `p` with the number below `10 ^ p`, searched upwards
from `p`. -/
def magnitude (mantissa : Nat) (exponent : Int) : Nat → Int → Int
  | 0, p => p
  | fuel + 1, p =>
    if compareScaled 1 p mantissa exponent == .gt then p
    else magnitude mantissa exponent fuel (p + 1)

/-- Tries grids from coarse to fine. -/
def shortestFrom (mantissa : Nat) (exponent place : Int) : Nat → Nat → Nat × Int
  | 0, _ => (floorScaled mantissa exponent (place - 17), place - 17)
  | fuel + 1, count =>
    match nearest? mantissa exponent (place - count) with
    | some d => (d, place - count)
    | none => shortestFrom mantissa exponent place fuel (count + 1)

/-- Drops zeros at the end of the digits. -/
def stripZeros : Nat → Nat × Int → Nat × Int
  | 0, p => p
  | fuel + 1, (d, power) =>
    if d % 10 = 0 then stripZeros fuel (d / 10, power + 1) else (d, power)

/-- The fewest digits of a positive number that read back, and the power of ten of the last one. -/
def shortest (mantissa : Nat) (exponent : Int) : Nat × Int :=
  stripZeros 17 (shortestFrom mantissa exponent (magnitude mantissa exponent 700 (-330)) 17 1)

/-- Digits as a positional number. -/
def positional (digits : List Char) (power : Int) : List Char :=
  if 0 ≤ power then digits ++ List.replicate power.toNat '0'
  else
    let places := power.natAbs
    if places < digits.length then
      digits.take (digits.length - places) ++ '.' :: digits.drop (digits.length - places)
    else '0' :: '.' :: List.replicate (places - digits.length) '0' ++ digits

/-- Digits with an exponent of at least `width` digits. -/
def exponential (width : Nat) (digits : List Char) (power : Int) : List Char :=
  let e : Int := power + digits.length - 1
  let fraction := match digits.tail with
    | [] => []
    | rest => '.' :: rest
  digits.take 1 ++ fraction ++ 'e' :: (if e < 0 then '-' else '+') :: Text.padded width e.natAbs

/-- When a number is written with an exponent: below `10 ^ low`, and from `10 ^ high` on; and how
many digits the exponent has at least. -/
structure Style where
  low : Int
  high : Int
  width : Nat := 2

/-- Numbers below a ten-thousandth and from a million on have an exponent. -/
def general : Style := { low := -4, high := 6 }

/-- Numbers of a JSON text: below a millionth and from `10 ^ 21` on they have an exponent. -/
def wire : Style := { low := -6, high := 21, width := 1 }

/-- The text of a number. -/
def text (style : Style) (x : Binary64) : List Char :=
  match x with
  | .infinite negative => (if negative then '-' else '+') :: ['I', 'n', 'f']
  | .finite negative mantissa exponent =>
    let sign := if negative then ['-'] else []
    if mantissa = 0 then sign ++ ['0']
    else
      let (d, power) := shortest mantissa exponent
      let digits := Text.decimal d
      let e : Int := power + digits.length - 1
      sign ++
        if e < style.low ∨ style.high ≤ e then exponential style.width digits power
        else positional digits power

/-- The text of a number without an exponent. -/
def plainText (x : Binary64) : List Char :=
  text { low := -400, high := 400 } x

end Binary64
end ReviewQueue
