import ReviewQueue.Text.Blank
import ReviewQueue.Yaml.Scalar

/-! The block style, and whole documents.

A collection stands at a column: every entry of it starts there, and what belongs to an entry is
indented deeper. Only a sequence that is the value of a key may stand at the column of the key. -/

namespace ReviewQueue.Yaml

/-- Where a node stands: the least column of what belongs to it, and whether a sequence may stand
one column before that. -/
structure Room where
  least : Nat
  flat : Bool := false
  deriving DecidableEq, Repr

mutual

/-- Reads a node that starts in this line and is no block collection. -/
def inlineNode : Nat → Room → List Char → Except YamlError (Yaml × List Char)
  | 0, _, _ => .error {}
  | fuel + 1, room, s =>
    match property? s with
    | some r => do
      let (p, rest) ← r
      let rest := rest.dropWhile isGap
      let (node, rest) ←
        if endsLine rest then belowNode fuel room (afterLine rest) else inlineNode fuel room rest
      return (p.apply node, rest)
    | none =>
      match s with
      | '|' :: rest => do
        let (text, rest) ← blockScalar room.least false rest
        return (.scalar false "" (.ofList text), rest)
      | '>' :: rest => do
        let (text, rest) ← blockScalar room.least true rest
        return (.scalar false "" (.ofList text), rest)
      | _ =>
        if startsPlain false s then do
          let (text, rest) ← blockPlain (s.length + 1) room.least [] s
          return (.scalar true "" (.ofList text), rest)
        else do
          let (node, rest) ← flowNode (s.length + 1) s
          if room.least = 0 then return (node, rest) else return (node, ← endLine rest)

/-- Reads a node from the next line that says something, if it belongs here. -/
def belowNode : Nat → Room → List Char → Except YamlError (Yaml × List Char)
  | 0, _, _ => .error {}
  | fuel + 1, room, s => do
    let s ← skipLines s
    let column := indentOf s
    let body := s.drop column
    if s.isEmpty then return (absent, [])
    else if room.least ≤ column then blockNode fuel room.least column body
    else if room.flat && column + 1 == room.least && isDash body then do
      let (items, rest) ← blockItems fuel column true s
      return (.sequence items, rest)
    else return (absent, s)

/-- Reads a node that starts at a column of this line. -/
def blockNode : Nat → Nat → Nat → List Char → Except YamlError (Yaml × List Char)
  | 0, _, _, _ => .error {}
  | fuel + 1, least, column, s =>
    if isDash s then do
      let (items, rest) ← blockItem fuel column false s.tail
      return (.sequence items, rest)
    else if isKeyMark s then do
      let (entries, rest) ← markedEntry fuel column s.tail
      return (.mapping entries, rest)
    else
      match key? (s.length + 1) s with
      | some (key, rest) => do
        let (entries, rest) ← blockEntry fuel column key rest
        return (.mapping entries, rest)
      | none => inlineNode fuel { least } s

/-- Reads a node after a mark at a column. -/
def markedNode : Nat → Nat → Bool → List Char → Except YamlError (Yaml × List Char)
  | 0, _, _, _ => .error {}
  | fuel + 1, column, flat, s =>
    let gap := indentOf s
    let body := s.drop gap
    match body with
    | '\t' :: _ => .error {}
    | _ =>
      if endsLine body then belowNode fuel { least := column + 1, flat } (afterLine body)
      else blockNode fuel (column + 1) (column + 1 + gap) body

/-- Reads an item after its dash, and the items that follow. -/
def blockItem : Nat → Nat → Bool → List Char → Except YamlError (List Yaml × List Char)
  | 0, _, _, _ => .error {}
  | fuel + 1, column, flat, s => do
    let (item, rest) ← markedNode fuel column false s
    let (items, rest) ← blockItems fuel column flat rest
    return (item :: items, rest)

/-- Reads the items of a sequence from the next line on. In a flat sequence the next key of the
mapping around it ends it. -/
def blockItems : Nat → Nat → Bool → List Char → Except YamlError (List Yaml × List Char)
  | 0, _, _, _ => .error {}
  | fuel + 1, column, flat, s => do
    let s ← skipLines s
    let body := s.drop column
    if s.isEmpty || indentOf s < column then return ([], s)
    else if column < indentOf s then throw {}
    else if isDash body then blockItem fuel column flat body.tail
    else if flat then return ([], s)
    else throw {}

/-- Reads an entry after its key, and the entries that follow. -/
def blockEntry : Nat → Nat → Yaml → List Char → Except YamlError (List (Yaml × Yaml) × List Char)
  | 0, _, _, _ => .error {}
  | fuel + 1, column, key, s => do
    let room : Room := { least := column + 1, flat := true }
    let (value, rest) ←
      if endsLine s then belowNode fuel room (afterLine s)
      else inlineNode fuel room (s.dropWhile isGap)
    let (entries, rest) ← blockEntries fuel column rest
    return ((key, value) :: entries, rest)

/-- Reads an entry after the mark of its key, and the entries that follow. Its value stands after a
colon in a line of its own, if there is one. -/
def markedEntry : Nat → Nat → List Char → Except YamlError (List (Yaml × Yaml) × List Char)
  | 0, _, _ => .error {}
  | fuel + 1, column, s => do
    let (key, rest) ← markedNode fuel column true s
    let rest ← skipLines rest
    let body := rest.drop column
    let (value, rest) ←
      if indentOf rest = column ∧ isColon body then markedNode fuel column true body.tail
      else pure (absent, rest)
    let (entries, rest) ← blockEntries fuel column rest
    return ((key, value) :: entries, rest)

/-- Reads the entries of a mapping from the next line on. -/
def blockEntries : Nat → Nat → List Char → Except YamlError (List (Yaml × Yaml) × List Char)
  | 0, _, _ => .error {}
  | fuel + 1, column, s => do
    let s ← skipLines s
    if s.isEmpty || indentOf s < column then return ([], s)
    else if column < indentOf s then throw {}
    else if isKeyMark (s.drop column) then markedEntry fuel column (s.drop column).tail
    else
      match key? (s.length + 1) (s.drop column) with
      | some (key, rest) => blockEntry fuel column key rest
      | none => throw {}

end

/-! ## Names -/

/-- Nodes by their names, the latest first. -/
abbrev Anchors := List (String × Yaml)

mutual

/-- Puts the nodes that names stand for in their places. A name stands for the last node that was
given it before. -/
def resolve (known : Anchors) : Yaml → Except YamlError (Yaml × Anchors)
  | .scalar plain tag text => .ok (.scalar plain tag text, known)
  | .sequence items => do
    let (items, known) ← resolveItems known items
    return (.sequence items, known)
  | .mapping entries => do
    let (entries, known) ← resolveEntries known entries
    return (.mapping entries, known)
  | .anchored name node => do
    let (node, known) ← resolve known node
    return (node, (name, node) :: known)
  | .alias name =>
    match known.lookup name with
    | some node => .ok (node, known)
    | none => .error {}

/-- Resolves items in order. -/
def resolveItems (known : Anchors) : List Yaml → Except YamlError (List Yaml × Anchors)
  | [] => .ok ([], known)
  | node :: rest => do
    let (node, known) ← resolve known node
    let (rest, known) ← resolveItems known rest
    return (node :: rest, known)

/-- Resolves entries in order. -/
def resolveEntries (known : Anchors) :
    List (Yaml × Yaml) → Except YamlError (List (Yaml × Yaml) × Anchors)
  | [] => .ok ([], known)
  | (key, value) :: rest => do
    let (key, known) ← resolve known key
    let (value, known) ← resolve known value
    let (rest, known) ← resolveEntries known rest
    return ((key, value) :: rest, known)

end

/-! ## Documents -/

/-- Whether a directive is known: the version of the language, which is 1.1, and declarations of
tags. -/
def isDirective (line : String) : Bool :=
  match (Text.words line).takeWhile (!·.startsWith "#") with
  | ["YAML", version] => version == "1.1"
  | ["TAG", _, _] => true
  | _ => false

/-- Skips the directives before a document. They need a marker after them. -/
def skipDirectives : Nat → Bool → List Char → Except YamlError (List Char)
  | 0, _, _ => .error {}
  | fuel + 1, seen, s => do
    let s ← skipLines s
    match s with
    | '%' :: rest =>
      if isDirective (.ofList (rest.takeWhile (!isBreak ·))) then
        skipDirectives fuel true (afterLine rest)
      else throw {}
    | _ => if seen && !isMarker '-' s then throw {} else return s

/-- Reads the first document of a text; what follows its node is ignored. -/
def readTree (text : String) : Except YamlError Yaml := do
  let s := dropByteOrder text.toList
  if !s.all isAllowed then throw {}
  let s ← skipDirectives (s.length + 1) false (unifyBreaks s)
  let fuel (s : List Char) : Nat := 4 * s.length + 16
  let (node, _) ←
    if isMarker '-' s then
      let body := beforeMarker false (s.drop 3)
      if endsLine body then belowNode (fuel body) { least := 0 } (afterLine body)
      else inlineNode (fuel body) { least := 0 } (body.dropWhile isGap)
    else
      let body := beforeMarker true s
      belowNode (fuel body) { least := 0 } body
  return node

/-- Reads the first document of a text, with every name resolved. -/
def read (text : String) : Except YamlError Yaml := do
  let node ← readTree text
  let (node, _) ← resolve [] node
  return node

end ReviewQueue.Yaml
