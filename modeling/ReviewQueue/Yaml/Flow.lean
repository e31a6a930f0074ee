import ReviewQueue.Yaml.Basic

/-! The flow style: quoted scalars, and collections in brackets.

All readers take what follows and return it without what they read. A line break inside a scalar is
folded: one break is a blank, and of several breaks the first is dropped. Separators of lines and of
paragraphs break lines too, and are kept. -/

namespace ReviewQueue.Yaml

/-- A blank inside a line. -/
def isGap (c : Char) : Bool := c == ' ' || c == '\t'

/-- A line break: a newline, or a separator of lines or of paragraphs. -/
def isBreak (c : Char) : Bool := c == '\n' || c.toNat == 0x2028 || c.toNat == 0x2029

/-- A blank or a line break. -/
def isSpace (c : Char) : Bool := isGap c || isBreak c

/-- Whether a text ends here, or a blank follows. -/
def endsWord (s : List Char) : Bool :=
  match s with
  | [] => true
  | c :: _ => isSpace c

/-- Skips blanks, line breaks and comments; `fuel` is at least the number of characters. -/
def skipBlanks : Nat → List Char → List Char
  | 0, s => s
  | _, [] => []
  | fuel + 1, c :: rest =>
    if isSpace c then skipBlanks fuel rest
    else if c = '#' then skipBlanks fuel (rest.dropWhile (!isBreak ·))
    else c :: rest

/-- Skips blanks and comments between two tokens. -/
def skip (s : List Char) : List Char :=
  skipBlanks s.length s

/-- The blanks and breaks between two lines of a scalar: the breaks, and what follows. -/
def breaks (s : List Char) : List Char × List Char :=
  ((s.takeWhile isSpace).filter isBreak, s.dropWhile isSpace)

/-- What a run of line breaks is folded to. -/
def folded : List Char → List Char
  | ['\n'] => [' ']
  | '\n' :: more => more
  | kept => kept

/-- Drops the blanks that end what was read so far, which is held last character first. -/
def dropGaps (read : List Char) : List Char :=
  read.dropWhile isGap

/-- Reads a scalar in single quotes, of which two stand for one. -/
def singleQuoted : Nat → List Char → List Char → Except YamlError (List Char × List Char)
  | 0, _, _ => .error {}
  | _, _, [] => .error {}
  | fuel + 1, read, c :: rest =>
    if c = '\'' then
      match rest with
      | '\'' :: rest => singleQuoted fuel ('\'' :: read) rest
      | _ => .ok (read.reverse, rest)
    else if isBreak c then
      let (more, rest) := breaks rest
      singleQuoted fuel ((folded (c :: more)).reverse ++ dropGaps read) rest
    else singleQuoted fuel (c :: read) rest

/-- The character that an escape letter stands for. -/
def escaped? (c : Char) : Option Char :=
  match c with
  | '0' => some (Char.ofNat 0)
  | 'a' => some (Char.ofNat 7)
  | 'b' => some (Char.ofNat 8)
  | 't' => some '\t'
  | '\t' => some '\t'
  | 'n' => some '\n'
  | 'v' => some (Char.ofNat 11)
  | 'f' => some (Char.ofNat 12)
  | 'r' => some '\r'
  | 'e' => some (Char.ofNat 27)
  | ' ' => some ' '
  | '"' => some '"'
  | '\'' => some '\''
  | '/' => some '/'
  | '\\' => some '\\'
  | 'N' => some (Char.ofNat 0x85)
  | '_' => some (Char.ofNat 0xA0)
  | 'L' => some (Char.ofNat 0x2028)
  | 'P' => some (Char.ofNat 0x2029)
  | _ => none

/-- How many hexadecimal digits follow an escape letter. -/
def escapeWidth? (c : Char) : Option Nat :=
  match c with
  | 'x' => some 2
  | 'u' => some 4
  | 'U' => some 8
  | _ => none

/-- The character of a hexadecimal number with a fixed number of digits. -/
def hexChar? (width : Nat) (s : List Char) : Option (Char × List Char) := do
  if s.length < width then none
  let n ← Literal.digits? 16 (s.take width)
  if (0xD800 ≤ n && n ≤ 0xDFFF) || 0x10FFFF < n then none
  return (Char.ofNat n, s.drop width)

/-- Reads a scalar in double quotes, with escapes. -/
def doubleQuoted : Nat → List Char → List Char → Except YamlError (List Char × List Char)
  | 0, _, _ => .error {}
  | _, _, [] => .error {}
  | fuel + 1, read, c :: rest =>
    if c = '"' then .ok (read.reverse, rest)
    else if isBreak c then
      let (more, rest) := breaks rest
      doubleQuoted fuel ((folded (c :: more)).reverse ++ dropGaps read) rest
    else if c = '\\' then
      match rest with
      | [] => .error {}
      | e :: rest =>
        if isBreak e then
          let (more, rest) := breaks rest
          doubleQuoted fuel (more.reverse ++ read) rest
        else
          match escaped? e, escapeWidth? e with
          | some c, _ => doubleQuoted fuel (c :: read) rest
          | none, some width =>
            match hexChar? width rest with
            | some (c, rest) => doubleQuoted fuel (c :: read) rest
            | none => .error {}
          | none, none => .error {}
    else doubleQuoted fuel (c :: read) rest

/-- Reads a scalar in quotes, if one starts here. -/
def quotedScalar? (s : List Char) : Option (Except YamlError (List Char × List Char)) :=
  match s with
  | '"' :: rest => some (doubleQuoted (rest.length + 1) [] rest)
  | '\'' :: rest => some (singleQuoted (rest.length + 1) [] rest)
  | _ => none

/-- The characters that cannot start a plain scalar. -/
def indicators : List Char :=
  ['-', '?', ':', ',', '[', ']', '\x7b', '\x7d', '#', '&', '*', '!', '|', '>', '\'', '"', '%', '@',
   Char.ofNat 0x60]

/-- Whether a plain scalar starts here. A dash may start one when no blank follows; outside of
brackets so may a question mark and a colon. -/
def startsPlain (inFlow : Bool) (s : List Char) : Bool :=
  match s with
  | [] => false
  | c :: rest =>
    if isSpace c then false
    else if !indicators.contains c then true
    else if c = '-' then !endsWord rest
    else (c = '?' || c = ':') && !inFlow && !endsWord rest

/-- Whether a plain scalar in brackets ends before this character. -/
def endsFlowPlain (c : Char) (rest : List Char) : Bool :=
  (c == ':' && endsWord rest) || (c == '?' && endsWord rest) ||
    [',', '[', ']', '\x7b', '\x7d'].contains c

/-- Reads a plain scalar in brackets, held last character first. -/
def flowPlain : Nat → List Char → List Char → List Char × List Char
  | 0, read, s => (read, s)
  | _, read, [] => (read, [])
  | fuel + 1, read, c :: rest =>
    if endsFlowPlain c rest then (read, c :: rest)
    else if isSpace c then
      let (lines, after) := breaks (c :: rest)
      match after with
      | [] => (read, [])
      | '#' :: _ => (read, c :: rest)
      | d :: after' =>
        if endsFlowPlain d after' then (read, c :: rest)
        else if lines.isEmpty then
          flowPlain fuel (((c :: rest).takeWhile isSpace).reverse ++ read) after
        else flowPlain fuel ((folded lines).reverse ++ read) after
    else flowPlain fuel (c :: read) rest

/-- Whether a character may stand in the name of an anchor. -/
def isAnchorChar (c : Char) : Bool :=
  c.isAlphanum || c == '_' || c == '-'

/-- The short form of a tag. The tags of the language itself may be written out. -/
def shortTag (tag : String) : String :=
  let full := if tag.startsWith "!<" && tag.endsWith ">" then (tag.drop 2).dropEnd 1 else tag
  if full.startsWith "tag:yaml.org,2002:" then "!!" ++ full.drop 18 else full.toString

/-- Reads a tag after its mark, up to a character that ends it. A tag with a name between two marks
needs a declaration, and is refused. -/
def readTag (ends : Char → Bool) (s : List Char) : Except YamlError (String × List Char) :=
  let tag := s.takeWhile (!ends ·)
  if tag.head? ≠ some '!' ∧ tag.head? ≠ some '<' ∧ tag.contains '!' then .error {}
  else .ok (shortTag (.ofList ('!' :: tag)), s.dropWhile (!ends ·))

/-- Gives a node a tag, which only scalars keep. -/
def withTag (tag : String) : Yaml → Yaml
  | .scalar plain _ text => .scalar plain tag text
  | node => node

mutual

/-- Reads a node in brackets. -/
def flowNode : Nat → List Char → Except YamlError (Yaml × List Char)
  | 0, _ => .error {}
  | fuel + 1, s =>
    match s with
    | '[' :: rest => do
      let (items, rest) ← flowItems fuel (skip rest)
      return (.sequence items, rest)
    | '\x7b' :: rest => do
      let (entries, rest) ← flowEntries fuel (skip rest)
      return (.mapping entries, rest)
    | '*' :: rest =>
      let name := rest.takeWhile isAnchorChar
      if name.isEmpty then .error {}
      else .ok (.alias (.ofList name), rest.dropWhile isAnchorChar)
    | '&' :: rest => do
      let name := rest.takeWhile isAnchorChar
      if name.isEmpty then throw {}
      let (node, rest) ← flowNode fuel (skip (rest.dropWhile isAnchorChar))
      return (.anchored (.ofList name) node, rest)
    | '!' :: rest => do
      let (tag, rest) ←
        readTag (fun c => isSpace c || [',', '[', ']', '\x7b', '\x7d'].contains c) rest
      let (node, rest) ← flowNode fuel (skip rest)
      return (withTag tag node, rest)
    | _ =>
      match quotedScalar? s with
      | some r => do
        let (text, rest) ← r
        return (.scalar false "" (.ofList text), rest)
      | none =>
        if startsPlain true s then
          let (read, rest) := flowPlain s.length [] s
          .ok (.scalar true "" (.ofList read.reverse), rest)
        else if s.head?.any ([',', ']', '\x7d', ':'].contains ·) then .ok (absent, s)
        else .error {}

/-- Reads the items of a sequence up to its bracket. An item with a colon is a mapping of one
entry. -/
def flowItems : Nat → List Char → Except YamlError (List Yaml × List Char)
  | 0, _ => .error {}
  | fuel + 1, s =>
    match s with
    | ']' :: rest => .ok ([], rest)
    | [] => .error {}
    | ',' :: _ => .error {}
    | _ => do
      let (key, rest) ← flowNode fuel s
      let rest := skip rest
      let (item, rest) ←
        match rest with
        | ':' :: rest => do
          let (value, rest) ← flowNode fuel (skip rest)
          pure (Yaml.mapping [(key, value)], skip rest)
        | _ => pure (key, rest)
      match rest with
      | ',' :: rest => do
        let (items, rest) ← flowItems fuel (skip rest)
        return (item :: items, rest)
      | ']' :: rest => return ([item], rest)
      | _ => throw {}

/-- Reads the entries of a mapping up to its brace. -/
def flowEntries : Nat → List Char → Except YamlError (List (Yaml × Yaml) × List Char)
  | 0, _ => .error {}
  | fuel + 1, s =>
    match s with
    | '\x7d' :: rest => .ok ([], rest)
    | [] => .error {}
    | ',' :: _ => .error {}
    | _ => do
      let (key, rest) ← flowNode fuel s
      let rest := skip rest
      let (value, rest) ←
        match rest with
        | ':' :: rest => do
          let (value, rest) ← flowNode fuel (skip rest)
          pure (value, skip rest)
        | _ => pure (absent, rest)
      match rest with
      | ',' :: rest => do
        let (entries, rest) ← flowEntries fuel (skip rest)
        return ((key, value) :: entries, rest)
      | '\x7d' :: rest => return ([(key, value)], rest)
      | _ => throw {}

end

end ReviewQueue.Yaml
