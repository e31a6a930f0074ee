import ReviewQueue.Json.Basic

/-! The reader of JSON texts.

`readValue` reads one value from the front of a text and returns what follows it. Its first
argument bounds the nesting and the number of items together; `fuelFor` gives enough of it for any
text. A text whose arrays and objects stand inside one another more than `maxHeight` times is not
read at all. A string may spell a character as two surrogate escapes; a surrogate without its
partner becomes the replacement character. -/

namespace ReviewQueue.Json

/-- The four blanks that JSON allows between tokens. -/
def isSpace (c : Char) : Bool :=
  c == ' ' || c == '\t' || c == '\r' || c == '\n'

/-- Drops the blanks in front. -/
def skipSpaces (s : List Char) : List Char :=
  s.dropWhile isSpace

/-- The value of a hexadecimal digit. -/
def hexValue? (c : Char) : Option Nat :=
  let n := c.toNat
  if 48 ≤ n ∧ n ≤ 57 then some (n - 48)
  else if 97 ≤ n ∧ n ≤ 102 then some (n - 87)
  else if 65 ≤ n ∧ n ≤ 70 then some (n - 55)
  else none

/-- The value of four hexadecimal digits. -/
def hex4? (a b c d : Char) : Option Nat := do
  let a ← hexValue? a
  let b ← hexValue? b
  let c ← hexValue? c
  let d ← hexValue? d
  return ((a * 16 + b) * 16 + c) * 16 + d

/-- What a one-letter escape stands for. -/
def escapeValue? (c : Char) : Option Nat :=
  match c with
  | '"' => some 0x22
  | '\\' => some 0x5C
  | '/' => some 0x2F
  | 'b' => some 0x08
  | 'f' => some 0x0C
  | 'n' => some 0x0A
  | 'r' => some 0x0D
  | 't' => some 0x09
  | _ => none

/-- Puts a code in front of what was read after it. -/
def consCode (code : Nat) (read : Option (List Nat × List Char)) :
    Option (List Nat × List Char) :=
  read.map fun p => (code :: p.1, p.2)

/-- Reads the codes of a string up to its closing quote, and the text after that. A code may be a
surrogate only where an escape spells one. -/
def readCodes : List Char → Option (List Nat × List Char)
  | [] => none
  | '"' :: rest => some ([], rest)
  | '\\' :: 'u' :: a :: b :: c :: d :: rest =>
    match hex4? a b c d with
    | some n => consCode n (readCodes rest)
    | none => none
  | '\\' :: e :: rest =>
    match escapeValue? e with
    | some n => consCode n (readCodes rest)
    | none => none
  | c :: rest =>
    if c.toNat < 0x20 ∨ c = '\\' then none else consCode c.toNat (readCodes rest)

/-- Whether a code is the first half of a surrogate pair. -/
def isHighSurrogate (n : Nat) : Bool :=
  decide (0xD800 ≤ n) && decide (n ≤ 0xDBFF)

/-- Whether a code is the second half of a surrogate pair. -/
def isLowSurrogate (n : Nat) : Bool :=
  decide (0xDC00 ≤ n) && decide (n ≤ 0xDFFF)

/-- The characters of a code sequence: pairs of surrogates are joined, others are replaced. -/
def charsOfCodes : List Nat → List Char
  | [] => []
  | [n] => [if isHighSurrogate n || isLowSurrogate n then Text.replacement else Char.ofNat n]
  | n :: m :: rest =>
    if isHighSurrogate n && isLowSurrogate m then
      Char.ofNat ((n - 0xD800) * 1024 + (m - 0xDC00) + 0x10000) :: charsOfCodes rest
    else if isHighSurrogate n || isLowSurrogate n then
      Text.replacement :: charsOfCodes (m :: rest)
    else Char.ofNat n :: charsOfCodes (m :: rest)

/-- Reads a string after its opening quote. -/
def readString (s : List Char) : Option (String × List Char) :=
  (readCodes s).map fun p => (.ofList (charsOfCodes p.1), p.2)

/-- Splits off the leading digits, of which there must be one. -/
def readDigits (s : List Char) : Option (List Char × List Char) :=
  match s.takeWhile Text.isDigit with
  | [] => none
  | digits => some (digits, s.dropWhile Text.isDigit)

/-- The whole part of a number: a zero alone, or digits that start with none. -/
def readWhole (s : List Char) : Option (List Char × List Char) :=
  match s with
  | '0' :: rest => some (['0'], rest)
  | _ => readDigits s

/-- The fraction of a number, if it has one. -/
def readFraction (s : List Char) : Option (List Char × List Char) :=
  match s with
  | '.' :: rest => (readDigits rest).map fun p => ('.' :: p.1, p.2)
  | _ => some ([], s)

/-- The exponent of a number, if it has one. -/
def readExponent (s : List Char) : Option (List Char × List Char) :=
  match s with
  | e :: rest =>
    if e = 'e' ∨ e = 'E' then
      match rest with
      | sign :: digits =>
        if sign = '+' ∨ sign = '-' then
          (readDigits digits).map fun p => (e :: sign :: p.1, p.2)
        else (readDigits rest).map fun p => (e :: p.1, p.2)
      | [] => none
    else some ([], s)
  | [] => some ([], s)

/-- Reads a number, as it is spelled. -/
def readNumber (s : List Char) : Option (List Char × List Char) := do
  let (sign, s) :=
    match s with
    | '-' :: rest => (['-'], rest)
    | _ => ([], s)
  let (whole, s) ← readWhole s
  let (fraction, s) ← readFraction s
  let (exponent, s) ← readExponent s
  return (sign ++ whole ++ fraction ++ exponent, s)

mutual

/-- Reads a value that starts at the front of the text. -/
def readValue : Nat → List Char → Option (Json × List Char)
  | 0, _ => none
  | _ + 1, 'n' :: 'u' :: 'l' :: 'l' :: rest => some (.null, rest)
  | _ + 1, 't' :: 'r' :: 'u' :: 'e' :: rest => some (.bool true, rest)
  | _ + 1, 'f' :: 'a' :: 'l' :: 's' :: 'e' :: rest => some (.bool false, rest)
  | _ + 1, '"' :: rest => (readString rest).map fun p => (.string p.1, p.2)
  | fuel + 1, '[' :: rest =>
    match skipSpaces rest with
    | ']' :: rest => some (.array [], rest)
    | rest => (readItems fuel rest).map fun p => (.array p.1, p.2)
  | fuel + 1, '\x7b' :: rest =>
    match skipSpaces rest with
    | '\x7d' :: rest => some (.object [], rest)
    | rest => (readMembers fuel rest).map fun p => (.object p.1, p.2)
  | _ + 1, s => (readNumber s).map fun p => (.number p.1, p.2)

/-- Reads the items of an array from the first one on, and the closing bracket. -/
def readItems : Nat → List Char → Option (List Json × List Char)
  | 0, _ => none
  | fuel + 1, s =>
    match readValue fuel s with
    | none => none
    | some (v, rest) =>
      match skipSpaces rest with
      | ',' :: rest => (readItems fuel (skipSpaces rest)).map fun p => (v :: p.1, p.2)
      | ']' :: rest => some ([v], rest)
      | _ => none

/-- Reads the members of an object from the first key on, and the closing brace. -/
def readMembers : Nat → List Char → Option (List (String × Json) × List Char)
  | 0, _ => none
  | fuel + 1, s =>
    match s with
    | '"' :: s =>
      match readString s with
      | none => none
      | some (key, rest) =>
        match skipSpaces rest with
        | ':' :: rest =>
          match readValue fuel (skipSpaces rest) with
          | none => none
          | some (v, rest) =>
            match skipSpaces rest with
            | ',' :: rest =>
              (readMembers fuel (skipSpaces rest)).map fun p => ((key, v) :: p.1, p.2)
            | '\x7d' :: rest => some ([(key, v)], rest)
            | _ => none
        | _ => none
    | _ => none

end

/-- Fuel enough to read any value from the front of a text. -/
def fuelFor (s : List Char) : Nat :=
  2 * s.length + 2

/-- How many arrays and objects may stand inside one another. -/
def maxHeight : Nat := 10000

/-- Reads the first value of a text, after blanks, and returns what follows it. -/
def readFirst (s : List Char) : Option (Json × List Char) :=
  let s := skipSpaces s
  (readValue (fuelFor s) s).filter fun p => decide (p.1.height ≤ maxHeight)

/-- Reads a text that is one value and blanks. -/
def read (s : List Char) : Option Json :=
  match readFirst s with
  | some (v, rest) => if (skipSpaces rest).isEmpty then some v else none
  | none => none

/-- Whether a text is one JSON value and blanks. -/
def isValid (s : List Char) : Bool :=
  (read s).isSome

end ReviewQueue.Json
