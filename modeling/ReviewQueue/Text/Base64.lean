/-! Base 64: four characters for three bytes. -/

namespace ReviewQueue.Text

/-- The six bits that a character stands for. -/
def sixBits? (c : Char) : Option Nat :=
  let n := c.toNat
  if 65 ≤ n ∧ n ≤ 90 then some (n - 65)
  else if 97 ≤ n ∧ n ≤ 122 then some (n - 71)
  else if 48 ≤ n ∧ n ≤ 57 then some (n + 4)
  else if c = '+' then some 62
  else if c = '/' then some 63
  else none

/-- The bytes of groups of six bits; bits that fill no byte are dropped. -/
def bytesOfSixBits : List Nat → List UInt8
  | a :: b :: c :: d :: rest =>
    UInt8.ofNat (a * 4 + b / 16) :: UInt8.ofNat (b % 16 * 16 + c / 4) ::
      UInt8.ofNat (c % 4 * 64 + d) :: bytesOfSixBits rest
  | [a, b, c] => [UInt8.ofNat (a * 4 + b / 16), UInt8.ofNat (b % 16 * 16 + c / 4)]
  | [a, b] => [UInt8.ofNat (a * 4 + b / 16)]
  | _ => []

/-- The bytes of a text in base 64 whose length is a multiple of four, with one or two signs of
padding at its end if need be. Line breaks are skipped. -/
def ofBase64? (s : List Char) : Option (List UInt8) := do
  let s := s.filter fun c => c != '\n' && c != '\r'
  let body := s.takeWhile (· != '=')
  let padding := s.dropWhile (· != '=')
  guard (s.length % 4 = 0 ∧ padding.length ≤ 2 ∧ padding.all (· == '='))
  return bytesOfSixBits (← body.mapM sixBits?)

/-- The bytes of a text in base 64. What is no such character, the padding included, is skipped. -/
def ofBase64 (s : List Char) : List UInt8 :=
  bytesOfSixBits (s.filterMap sixBits?)

end ReviewQueue.Text
