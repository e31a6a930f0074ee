import ReviewQueue.Text.Numeral
import ReviewQueue.Json.Reader

/-! Integer literals in several bases.

A literal has an optional sign and is hexadecimal, octal or binary after `0x`, `0o` or `0b`, octal
after a plain leading zero, and decimal otherwise. It must fit a signed 64-bit word. -/

namespace ReviewQueue.Literal

/-- The value of a digit in any base up to sixteen. -/
def digit? (base : Nat) (c : Char) : Option Nat :=
  (Json.hexValue? c).filter (decide <| · < base)

/-- The value of digits in a base; there must be at least one. -/
def digits? (base : Nat) (s : List Char) : Option Nat :=
  if s.isEmpty then none
  else s.foldl (fun acc c => do return base * (← acc) + (← digit? base c)) (some 0)

/-- The base of an unsigned literal, and its digits. -/
def splitBase : List Char → Nat × List Char
  | '0' :: c :: rest =>
    if c = 'x' ∨ c = 'X' then (16, rest)
    else if c = 'o' ∨ c = 'O' then (8, rest)
    else if c = 'b' ∨ c = 'B' then (2, rest)
    else (8, c :: rest)
  | s => (10, s)

/-- The sign of a literal, and what follows it. -/
def splitSign : List Char → Bool × List Char
  | '-' :: rest => (true, rest)
  | '+' :: rest => (false, rest)
  | s => (false, s)

/-- Reads a literal. -/
def read? (s : List Char) : Option Int := do
  let (negative, rest) := splitSign s
  let (base, ds) := splitBase rest
  let n ← digits? base ds
  let v : Int := if negative then -n else n
  if fitsWord v then some v else none

/-- Whether every underscore stands between two digits, or between the mark of the base and a
digit. `free` tells whether an underscore may come next. -/
def underscoresOk (base : Nat) : Bool → List Char → Bool
  | _, [] => true
  | _, ['_'] => false
  | free, '_' :: c :: rest =>
    free && (digit? base c).isSome && underscoresOk base true rest
  | _, _ :: rest => underscoresOk base true rest

/-- Reads a literal in which underscores may divide the digits. -/
def readDivided? (s : List Char) : Option Int :=
  let (_, rest) := splitSign s
  let (base, ds) := splitBase rest
  if s.contains '_' && !underscoresOk base (base != 10) ds then none
  else read? (s.filter (· != '_'))

/-- Reads a literal in which underscores may divide the digits, and tells why it is none. -/
def readWord (s : List Char) : Except Text.NumeralError Int :=
  let (_, rest) := splitSign s
  let (base, ds) := splitBase rest
  match readDivided? s with
  | some n => .ok n
  | none =>
    let plain := ds.filter (· != '_')
    if (digits? base plain).isSome && (!ds.contains '_' || underscoresOk base (base != 10) ds) then
      .error .outOfRange
    else .error .malformed

end ReviewQueue.Literal
