import ReviewQueue.Json.Reader

/-! The layout of a JSON text: its first value as text, the members of an object and the items of
an array with their values as text, and the text without its blanks.

Decoding works on these texts and not on values, because some fields of a record keep the text of
their value as it was written. -/

namespace ReviewQueue.Json

/-- Splits the text of the first value off, without the blanks in front of it. -/
def splitFirst (s : List Char) : Option (List Char × List Char) :=
  (readFirst s).map fun p =>
    let s := skipSpaces s
    (s.take (s.length - p.2.length), p.2)

/-- The text of a whole document without the blanks around its value. -/
def document? (s : List Char) : Option (List Char) :=
  match splitFirst s with
  | some (v, rest) => if (skipSpaces rest).isEmpty then some v else none
  | none => none

/-- Reads members from the first key on. -/
def membersFrom : Nat → List Char → Option (List (String × List Char))
  | 0, _ => none
  | fuel + 1, s =>
    match s with
    | '"' :: s =>
      match readString s with
      | none => none
      | some (key, rest) =>
        match skipSpaces rest with
        | ':' :: rest =>
          match splitFirst rest with
          | none => none
          | some (v, rest) =>
            match skipSpaces rest with
            | ',' :: rest => (membersFrom fuel (skipSpaces rest)).map ((key, v) :: ·)
            | '\x7d' :: _ => some [(key, v)]
            | _ => none
        | _ => none
    | _ => none

/-- The members of an object text, each value as its text. -/
def members? (s : List Char) : Option (List (String × List Char)) :=
  match s with
  | '\x7b' :: rest =>
    match skipSpaces rest with
    | '\x7d' :: _ => some []
    | rest => membersFrom rest.length rest
  | _ => none

/-- Reads items from the first one on. -/
def itemsFrom : Nat → List Char → Option (List (List Char))
  | 0, _ => none
  | fuel + 1, s =>
    match splitFirst s with
    | none => none
    | some (v, rest) =>
      match skipSpaces rest with
      | ',' :: rest => (itemsFrom fuel (skipSpaces rest)).map (v :: ·)
      | ']' :: _ => some [v]
      | _ => none

/-- The items of an array text. -/
def items? (s : List Char) : Option (List (List Char)) :=
  match s with
  | '[' :: rest =>
    match skipSpaces rest with
    | ']' :: _ => some []
    | rest => itemsFrom rest.length rest
  | _ => none

/-- Where `squeeze` stands in a text. -/
inductive Place where
  /-- Between tokens, where blanks are dropped. -/
  | outside
  /-- Inside a string. -/
  | inside
  /-- Inside a string, after a backslash. -/
  | escaped

/-- Drops the blanks between tokens and escapes the characters that a web page would take for
markup; all else stays as it is written. -/
def squeeze : Place → List Char → List Char
  | _, [] => []
  | .outside, c :: rest =>
    if isSpace c then squeeze .outside rest
    else c :: squeeze (if c = '"' then .inside else .outside) rest
  | .inside, c :: rest =>
    if c = '"' then c :: squeeze .outside rest
    else if c = '\\' then c :: squeeze .escaped rest
    else if c = '<' ∨ c = '>' ∨ c = '&' ∨ c.toNat = 0x2028 ∨ c.toNat = 0x2029 then
      escapeChar c ++ squeeze .inside rest
    else c :: squeeze .inside rest
  | .escaped, c :: rest => c :: squeeze .inside rest

/-- The compact form of a text that is one JSON value. -/
def compact? (s : List Char) : Option (List Char) :=
  if isValid s then some (squeeze .outside s) else none

end ReviewQueue.Json
