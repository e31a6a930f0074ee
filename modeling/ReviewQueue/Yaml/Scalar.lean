import ReviewQueue.Yaml.Lines

/-! Scalars and keys outside of brackets.

A plain scalar goes on in the next line as long as that is indented enough. A block scalar keeps its
lines, or folds them; what ends it is kept or dropped as its header says. -/

namespace ReviewQueue.Yaml

/-! ## Plain scalars -/

/-- Whether a tab stands among the first `least` characters of a line that a scalar goes on in. -/
def tabIndents (least : Nat) (gap : List Char) : Bool :=
  ((gap.splitBy fun a _ => !isBreak a).tail).any fun line => (line.take least).contains '\t'

/-- Reads a plain scalar, of which `read` holds what was read last character first. It goes on in
lines that are indented by `least` or more. What is left stands at the start of a line. -/
def blockPlain : Nat → Nat → List Char → List Char → Except YamlError (List Char × List Char)
  | 0, _, _, _ => .error {}
  | _, _, read, [] => .ok (read.reverse, [])
  | fuel + 1, least, read, c :: rest =>
    if isColon (c :: rest) then .error {}
    else if isSpace c then
      let gap := (c :: rest).takeWhile isSpace
      let after := (c :: rest).dropWhile isSpace
      let margin := (gap.reverse.takeWhile (!isBreak ·)).reverse
      if !gap.any isBreak then
        match after with
        | [] => .ok (read.reverse, [])
        | '#' :: _ => .ok (read.reverse, afterLine after)
        | _ => blockPlain fuel least (gap.reverse ++ read) after
      else if tabIndents least gap then .error {}
      else
        match after with
        | [] => .ok (read.reverse, [])
        | '#' :: _ => .ok (read.reverse, margin ++ after)
        | _ =>
          if margin.length < least then .ok (read.reverse, margin ++ after)
          else blockPlain fuel least ((folded (gap.filter isBreak)).reverse ++ read) after
    else blockPlain fuel least (c :: read) rest

/-! ## Block scalars -/

/-- What happens to the line breaks at the end of a block scalar. -/
inductive Chomp where
  | strip
  | clip
  | keep
  deriving DecidableEq, Repr

/-- The header of a block scalar: its chomping, and its own indentation. -/
structure BlockHeader where
  chomp : Chomp := .clip
  indent : Option Nat := none
  deriving DecidableEq, Repr

/-- Reads a sign of chomping. -/
def chomp? (c : Char) : Option Chomp :=
  if c = '+' then some .keep else if c = '-' then some .strip else none

/-- Reads a digit of indentation. -/
def blockIndent? (c : Char) : Option Nat :=
  if Text.isDigit c ∧ c ≠ '0' then some (c.toNat - 48) else none

/-- Reads a header: a sign and a digit in any order, each of which may be missing. -/
def blockHeader (s : List Char) : BlockHeader × List Char :=
  match s with
  | a :: b :: rest =>
    match chomp? a, blockIndent? a, chomp? b, blockIndent? b with
    | some chomp, _, _, some n => (⟨chomp, some n⟩, rest)
    | some chomp, _, _, none => (⟨chomp, none⟩, b :: rest)
    | none, some n, some chomp, _ => (⟨chomp, some n⟩, rest)
    | none, some n, none, _ => (⟨.clip, some n⟩, b :: rest)
    | none, none, _, _ => ({}, s)
  | [a] =>
    match chomp? a, blockIndent? a with
    | some chomp, _ => (⟨chomp, none⟩, [])
    | none, some n => (⟨.clip, some n⟩, [])
    | none, none => ({}, s)
  | [] => ({}, [])

/-- A line of a block scalar, and the break that ends it, if there is one. -/
structure BlockLine where
  text : List Char
  ending : Option Char
  deriving DecidableEq, Repr

/-- The indentation that the first lines show: that of the first line that says something, or of a
longer empty one before it. -/
def shownIndent : Nat → Nat → List Char → Except YamlError Nat
  | 0, widest, _ => .ok widest
  | fuel + 1, widest, s =>
    let widest := max widest (indentOf s)
    match s.dropWhile (· == ' ') with
    | '\t' :: _ => .error {}
    | c :: rest => if isBreak c then shownIndent fuel widest rest else .ok widest
    | [] => .ok widest

/-- The lines that are indented by `indent` or more, and the empty ones among them. -/
def blockLines : Nat → Nat → List Char → Except YamlError (List BlockLine × List Char)
  | 0, _, s => .ok ([], s)
  | _, _, [] => .ok ([], [])
  | fuel + 1, indent, s =>
    let line := s.takeWhile (!isBreak ·)
    let ending := s.find? isBreak
    let margin := min (indentOf line) indent
    match line.drop margin with
    | [] =>
      if ending.isSome then do
        let (lines, rest) ← blockLines fuel indent (afterLine s)
        return (⟨[], ending⟩ :: lines, rest)
      else .ok ([], [])
    | c :: text =>
      if margin = indent then do
        let (lines, rest) ← blockLines fuel indent (afterLine s)
        return (⟨c :: text, ending⟩ :: lines, rest)
      else if c = '\t' then .error {}
      else .ok ([], s)

/-- What was put together of a block scalar: its text, last character first, the break of its last
line that is still due, the breaks of empty lines that are, last first, and whether the last line
started with a blank. -/
structure BlockText where
  read : List Char := []
  breakDue : Option Char := none
  emptyDue : List Char := []
  blankStart : Bool := false

/-- Adds a line. When lines are folded, a break between two lines that start with no blank is a
blank, or nothing when empty lines follow it. -/
def BlockText.add (fold : Bool) (b : BlockText) (line : BlockLine) : BlockText :=
  if line.text.isEmpty then { b with emptyDue := line.ending.toList ++ b.emptyDue }
  else
    let blank := line.text.head?.any isGap
    let glue : List Char :=
      if fold && b.breakDue == some '\n' && !b.blankStart && !blank then
        if b.emptyDue.isEmpty then [' '] else []
      else b.breakDue.toList
    { read := line.text.reverse ++ b.emptyDue ++ glue ++ b.read
      breakDue := line.ending
      blankStart := blank }

/-- The text with its end as the chomping says. -/
def BlockText.finish (chomp : Chomp) (b : BlockText) : List Char :=
  let last := if chomp = .strip then [] else b.breakDue.toList
  let empties := if chomp = .keep then b.emptyDue.reverse else []
  b.read.reverse ++ last ++ empties

/-- Reads a block scalar after its first character. Its lines are indented by `least` or more. -/
def blockScalar (least : Nat) (fold : Bool) (s : List Char) :
    Except YamlError (List Char × List Char) := do
  let (header, rest) := blockHeader s
  let body ← endLine rest
  let indent ←
    match header.indent with
    | some n => pure (least - 1 + n)
    | none => (shownIndent (body.length + 1) 0 body).map fun n => max (max n least) 1
  let (lines, rest) ← blockLines (body.length + 1) indent body
  return ((lines.foldl (BlockText.add fold) {}).finish header.chomp, rest)

/-! ## Properties and keys -/

/-- A property of a node: a name, or a tag. -/
inductive Property where
  | name (text : String)
  | tag (text : String)
  deriving DecidableEq, Repr

/-- Gives a node a property. -/
def Property.apply : Property → Yaml → Yaml
  | .name text, node => .anchored text node
  | .tag text, node => withTag text node

/-- Reads a property, if one starts here. -/
def property? (s : List Char) : Option (Except YamlError (Property × List Char)) :=
  match s with
  | '&' :: rest =>
    let name := rest.takeWhile isAnchorChar
    let after := rest.dropWhile isAnchorChar
    some (if name.isEmpty || !endsWord after then .error {} else .ok (.name (.ofList name), after))
  | '!' :: rest =>
    some ((readTag isSpace rest).map fun (tag, rest) => (.tag tag, rest))
  | _ => none

/-- The plain text before a colon in this line, held last character first. -/
def plainKey : Nat → List Char → List Char → Option (List Char × List Char)
  | 0, _, _ => none
  | _, _, [] => none
  | fuel + 1, read, c :: rest =>
    if isColon (c :: rest) then some (dropGaps read, rest)
    else if isBreak c then none
    else if c = '#' ∧ read.head?.any isGap then none
    else plainKey fuel (c :: read) rest

/-- Skips a colon that ends a key. -/
def afterColon? (s : List Char) : Option (List Char) :=
  let s := s.dropWhile isGap
  if isColon s then some s.tail else none

/-- Reads a key without properties and the colon after it, both in this line. -/
def bareKey? (s : List Char) : Option (Yaml × List Char) :=
  if startsPlain false s then
    (plainKey (s.length + 1) [] s).map fun (read, rest) =>
      (.scalar true "" (.ofList read.reverse), rest)
  else do
    let (node, rest) ← (flowNode (s.length + 1) s).toOption
    guard (s.length > rest.length ∧ !(s.take (s.length - rest.length)).any isBreak)
    return (node, ← afterColon? rest)

/-- Reads a key with its properties, and the colon after it, all in this line. -/
def key? : Nat → List Char → Option (Yaml × List Char)
  | 0, _ => none
  | fuel + 1, s =>
    match property? s with
    | some (.ok (p, rest)) =>
      (key? fuel (rest.dropWhile isGap)).map fun (key, rest) => (p.apply key, rest)
    | some (.error _) => none
    | none => bareKey? s

end ReviewQueue.Yaml
