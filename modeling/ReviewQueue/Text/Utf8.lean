/-! Texts as bytes.

Percent escapes and byte-counted cuts work on the UTF-8 form of a text, and may leave bytes that
are no UTF-8. `decodeFirst` reads one character and tells a byte that starts none; `lossy` shows
such bytes as replacement characters, and `ofBytes?` refuses them. -/

namespace ReviewQueue.Text

/-- The replacement character, shown for a byte that belongs to no character. -/
def replacement : Char := Char.ofNat 0xFFFD

/-- The UTF-8 form of a text. -/
def toBytes (s : List Char) : List UInt8 :=
  s.flatMap String.utf8EncodeChar

/-- Whether a byte continues a character of several bytes. -/
def isTail (b : UInt8) : Bool :=
  0x80 ≤ b && b ≤ 0xBF

/-- The bits of a byte below its high mark. -/
def low (b : UInt8) (bits : Nat) : Nat :=
  b.toNat % Nat.pow 2 bits

/-- Reads the first character of a byte sequence. A byte that starts no character gives `none` and
is skipped alone. -/
def decodeFirst : List UInt8 → Option (Option Char × List UInt8)
  | [] => none
  | a :: rest =>
    if a < 0x80 then some (some (Char.ofNat a.toNat), rest)
    else
      match rest with
      | b :: rest2 =>
        if 0xC2 ≤ a && a ≤ 0xDF && isTail b then
          some (some (Char.ofNat (low a 5 * 64 + low b 6)), rest2)
        else
          match rest2 with
          | c :: rest3 =>
            if ((a == 0xE0 && 0xA0 ≤ b && b ≤ 0xBF) || (0xE1 ≤ a && a ≤ 0xEC && isTail b) ||
                (a == 0xED && 0x80 ≤ b && b ≤ 0x9F) || (0xEE ≤ a && a ≤ 0xEF && isTail b)) &&
                isTail c then
              some (some (Char.ofNat (low a 4 * 4096 + low b 6 * 64 + low c 6)), rest3)
            else
              match rest3 with
              | d :: rest4 =>
                if ((a == 0xF0 && 0x90 ≤ b && b ≤ 0xBF) || (0xF1 ≤ a && a ≤ 0xF3 && isTail b) ||
                    (a == 0xF4 && 0x80 ≤ b && b ≤ 0x8F)) && isTail c && isTail d then
                  some (some (Char.ofNat
                    (low a 3 * 262144 + low b 6 * 4096 + low c 6 * 64 + low d 6)), rest4)
                else some (none, rest)
              | [] => some (none, rest)
          | [] => some (none, rest)
      | [] => some (none, rest)

/-- Reads a byte sequence character by character, for at most as many steps as `fuel`. -/
def decodeAll : Nat → List UInt8 → List (Option Char)
  | 0, _ => []
  | fuel + 1, bytes =>
    match decodeFirst bytes with
    | none => []
    | some (c, rest) => c :: decodeAll fuel rest

/-- The characters of a byte sequence, `none` for each byte that belongs to no character. -/
def runes (bytes : List UInt8) : List (Option Char) :=
  decodeAll bytes.length bytes

/-- The text of a byte sequence, with each stray byte shown as a replacement character. -/
def lossy (bytes : List UInt8) : String :=
  .ofList ((runes bytes).map (·.getD replacement))

/-- The text of a byte sequence that is UTF-8 throughout. -/
def ofBytes? (bytes : List UInt8) : Option String :=
  ((runes bytes).mapM id).map .ofList

end ReviewQueue.Text
