import ReviewQueue.Text.Printable
import ReviewQueue.Text.Numeral
import ReviewQueue.Text.Utf8

/-! Quoted text: a text between double quotes in which every character that is not printable is
escaped. Bytes that belong to no character are written as hexadecimal escapes. -/

namespace ReviewQueue.Text

/-- The character of a hexadecimal digit in lower case. -/
def hexDigit (d : Nat) : Char :=
  if d < 10 then Char.ofNat (48 + d) else Char.ofNat (87 + d)

/-- The last `width` hexadecimal digits of a number. -/
def hex : Nat → Nat → List Char
  | 0, _ => []
  | width + 1, n => hex width (n / 16) ++ [hexDigit (n % 16)]

/-- One character as it stands between double quotes. -/
def quoteChar (c : Char) : List Char :=
  if c = '"' then ['\\', '"']
  else if c = '\\' then ['\\', '\\']
  else if isPrintable c then [c]
  else
    match c.toNat with
    | 7 => ['\\', 'a']
    | 8 => ['\\', 'b']
    | 12 => ['\\', 'f']
    | 10 => ['\\', 'n']
    | 13 => ['\\', 'r']
    | 9 => ['\\', 't']
    | 11 => ['\\', 'v']
    | n =>
      if n < 32 ∨ n = 127 then '\\' :: 'x' :: hex 2 n
      else if n < 0x10000 then '\\' :: 'u' :: hex 4 n
      else '\\' :: 'U' :: hex 8 n

/-- A text in double quotes. -/
def quoted (s : String) : String :=
  .ofList ('"' :: s.toList.flatMap quoteChar ++ ['"'])

/-- Bytes as they stand between double quotes: characters as in a text, and each stray byte by its
value. -/
def quoteBytes : Nat → List UInt8 → List Char
  | 0, _ => []
  | fuel + 1, bytes =>
    match bytes, decodeFirst bytes with
    | _, some (some c, rest) => quoteChar c ++ quoteBytes fuel rest
    | b :: _, some (none, rest) => '\\' :: 'x' :: hex 2 b.toNat ++ quoteBytes fuel rest
    | _, _ => []

/-- A byte sequence in double quotes. -/
def quotedBytes (bytes : List UInt8) : String :=
  .ofList ('"' :: quoteBytes bytes.length bytes ++ ['"'])

end ReviewQueue.Text
