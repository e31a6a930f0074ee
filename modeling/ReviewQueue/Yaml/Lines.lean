import ReviewQueue.Yaml.Flow

/-! The lines of a document.

A document is what stands before the next marker line. Its readers stand either at the start of a
line or at a known column inside one. A tab never indents. -/

namespace ReviewQueue.Yaml

/-- Whether a document may hold a character. -/
def isAllowed (c : Char) : Bool :=
  let n := c.toNat
  c == '\t' || c == '\n' || c == '\r' || (0x20 ≤ n && n ≤ 0x7E) || n == 0x85 ||
    (0xA0 ≤ n && n != 0xFFFE && n != 0xFFFF)

/-- The text with every break by a return or a next-line character written as a newline. -/
def unifyBreaks : List Char → List Char
  | [] => []
  | '\r' :: '\n' :: rest => '\n' :: unifyBreaks rest
  | c :: rest => (if c = '\r' ∨ c.toNat = 0x85 then '\n' else c) :: unifyBreaks rest

/-- The text without the mark of its byte order. -/
def dropByteOrder : List Char → List Char
  | c :: rest => if c.toNat = 0xFEFF then rest else c :: rest
  | [] => []

/-- What follows the current line. -/
def afterLine (s : List Char) : List Char :=
  (s.dropWhile (!isBreak ·)).tail

/-- How many blanks a line starts with. -/
def indentOf (s : List Char) : Nat :=
  (s.takeWhile (· == ' ')).length

/-- Whether a line is a marker of three equal characters. -/
def isMarker (mark : Char) (s : List Char) : Bool :=
  s.take 3 == [mark, mark, mark] && endsWord (s.drop 3)

/-- What stands before the first line that is a marker; `start` tells whether a line starts here. -/
def beforeMarker : Bool → List Char → List Char
  | _, [] => []
  | start, c :: rest =>
    if start && (isMarker '-' (c :: rest) || isMarker '.' (c :: rest)) then []
    else c :: beforeMarker (isBreak c) rest

/-- The start of the next line that says something. A line that a tab indents is refused. -/
def nextLine : Nat → List Char → Except YamlError (List Char)
  | 0, s => .ok s
  | fuel + 1, s =>
    match s.dropWhile (· == ' ') with
    | [] => .ok []
    | '#' :: rest => nextLine fuel (afterLine rest)
    | '\t' :: _ => .error {}
    | c :: rest => if isBreak c then nextLine fuel rest else .ok s

/-- Skips lines that say nothing. -/
def skipLines (s : List Char) : Except YamlError (List Char) :=
  nextLine (s.length + 1) s

/-- Whether nothing but a comment follows in the line. -/
def endsLine (s : List Char) : Bool :=
  match s.dropWhile isGap with
  | [] => true
  | c :: _ => isBreak c || c == '#'

/-- Goes to the next line, when nothing but a comment follows in this one. -/
def endLine (s : List Char) : Except YamlError (List Char) :=
  if endsLine s then .ok (afterLine s) else .error {}

/-- Whether an item of a sequence starts here. -/
def isDash (s : List Char) : Bool :=
  match s with
  | '-' :: rest => endsWord rest
  | _ => false

/-- Whether a mark that a key follows stands here. -/
def isKeyMark (s : List Char) : Bool :=
  match s with
  | '?' :: rest => endsWord rest
  | _ => false

/-- Whether a colon that ends a key stands here. -/
def isColon (s : List Char) : Bool :=
  match s with
  | ':' :: rest => endsWord rest
  | _ => false

end ReviewQueue.Yaml
