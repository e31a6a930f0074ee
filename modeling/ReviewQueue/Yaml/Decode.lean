import ReviewQueue.Yaml.Block

/-! Decoding of documents into records.

A decoder gives nothing for a node that stands for nothing, and fails on a node of the wrong kind.
Keys of one mapping differ, also those that no field has; the value under a key that no field has is
not looked at. The key `<<` brings in the entries of other mappings, and an entry of the mapping
itself goes before those. -/

namespace ReviewQueue.Yaml

/-- Reads a node as a value; a null is none. -/
abbrev Decoder (α : Type) := Yaml → Except YamlError (Option α)

/-- A text: any scalar, as it is written. -/
def decodeText : Decoder String
  | .scalar plain tag text => do
    match ← meaning plain tag text with
    | .null => return none
    | .text value => return some value
    | _ => return some text
  | _ => .error {}

/-- An integer: a plain number, whose fraction is dropped. -/
def decodeInt : Decoder Int
  | .scalar plain tag text => do
    match ← meaning plain tag text with
    | .null => return none
    | .int n => return some n
    | .float x =>
      let n := x.truncate
      if n = wordMin ∧ text.toList.head? ≠ some '-' then throw {} else return some n
    | _ => throw {}
  | _ => .error {}

/-- A list, which a null leaves missing. Items that stand for nothing are dropped. -/
def decodeList (item : Decoder α) : Decoder (List α) := fun node =>
  match node with
  | .sequence items => do
    let items ← items.mapM item
    return some (items.filterMap id)
  | node => if node.isNull then .ok none else .error {}

/-! ## Mappings -/

/-- Whether two keys are the same: texts are compared as they are written, and other keys by their
kind alone. -/
def sameKey : Yaml → Yaml → Bool
  | .scalar _ _ a, .scalar _ _ b => a == b
  | .sequence _, .sequence _ => true
  | .mapping _, .mapping _ => true
  | _, _ => false

/-- Whether no key of a mapping occurs twice. -/
def uniqueKeys : List (Yaml × Yaml) → Bool
  | [] => true
  | (key, _) :: rest => !(rest.any fun e => sameKey key e.1) && uniqueKeys rest

/-- Whether a key brings in the entries of other mappings. -/
def isMergeKey : Yaml → Bool
  | .scalar plain tag text => plain && text == "<<" && (tag == "" || tag == "!!merge")
  | _ => false

/-- Adds entries whose keys are new. -/
def addNew (entries more : List (String × α)) : List (String × α) :=
  more.foldl (fun entries e =>
    if entries.any (·.1 == e.1) then entries else entries ++ [e]) entries

mutual

/-- The entries of a mapping by the texts of their keys, those that are brought in last. A key that
stands for nothing is skipped. -/
def members : Yaml → Except YamlError (List (String × Yaml))
  | .mapping entries => do
    if !uniqueKeys entries then throw {}
    let (own, merged) ← splitMembers entries
    return addNew own merged
  | _ => .error {}

/-- The entries of a mapping's own, and those that are brought in. -/
def splitMembers :
    List (Yaml × Yaml) → Except YamlError (List (String × Yaml) × List (String × Yaml))
  | [] => .ok ([], [])
  | (key, value) :: rest => do
    let (own, merged) ← splitMembers rest
    if isMergeKey key then return (own, addNew (← mergedMembers value) merged)
    else
      match ← decodeText key with
      | some name => return ((name, value) :: own, merged)
      | none => return (own, merged)

/-- The entries that the value of a merge key brings in: those of a mapping, or of several. -/
def mergedMembers : Yaml → Except YamlError (List (String × Yaml))
  | .mapping entries => do
    if !uniqueKeys entries then throw {}
    let (own, merged) ← splitMembers entries
    return addNew own merged
  | .sequence items => allMembers items
  | _ => .error {}

/-- The entries of several mappings, of which the first go before the later. -/
def allMembers : List Yaml → Except YamlError (List (String × Yaml))
  | [] => .ok []
  | node :: rest => do
    let first ← members node
    return addNew first (← allMembers rest)

end

/-! ## Records -/

/-- A field of a record, by the key it is read from. -/
structure RecordField (σ : Type) where
  name : String
  read : σ → Yaml → Except YamlError σ

/-- A field that keeps what it has when nothing is given. -/
def field (name : String) (decode : Decoder α) (set : σ → α → σ) : RecordField σ :=
  ⟨name, fun r node => do return ((← decode node).map (set r)).getD r⟩

/-- A record, over a blank one. -/
def decodeRecord (blank : σ) (fields : List (RecordField σ)) : Decoder σ := fun node =>
  if node.isNull then .ok none
  else do
    let entries ← members node
    let r ← entries.foldlM (fun r (name, value) =>
      match fields.find? (·.name == name) with
      | some f => f.read r value
      | none => pure r) blank
    return some r

end ReviewQueue.Yaml
