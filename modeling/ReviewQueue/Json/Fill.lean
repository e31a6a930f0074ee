import ReviewQueue.Json.Layout
import ReviewQueue.Text.Fold

/-! Decoding of JSON texts into records.

A `Filler` decodes the text of a value over an older value: null leaves the older value, a record
only touches the members it is given, and a list decodes item by item over the items it had. A
value of the wrong kind leaves the older value too and is reported in `fits`, while the rest of the
text is still decoded. Member names match exactly or ignoring case; unknown members are skipped. -/

namespace ReviewQueue.Json

/-- What decoding left: the value, and whether every part of the text fitted its place. -/
structure Filled (α : Type u) where
  value : α
  fits : Bool

/-- Decodes the text of a value over an older value. -/
abbrev Filler (α : Type u) := α → List Char → Filled α

/-- Whether a value text is null. -/
def isNullText (s : List Char) : Bool :=
  s.head? == some 'n'

/-- The older value, with the remark that the text did not fit. -/
def Filled.misfit (old : α) : Filled α := ⟨old, false⟩

/-- A value that fitted. -/
def Filled.fit (value : α) : Filled α := ⟨value, true⟩

/-- An integer: only a spelling without fraction and exponent fits, and only in 64 bits. -/
def fillInt : Filler Int := fun old s =>
  if isNullText s then .fit old
  else
    match s.head? with
    | some '"' => .misfit old
    | _ =>
      match Text.readNumeral s with
      | .ok n => .fit n
      | .error _ => .misfit old

/-- A string. -/
def fillString : Filler String := fun old s =>
  if isNullText s then .fit old
  else
    match s with
    | '"' :: rest =>
      match readString rest with
      | some (v, _) => .fit v
      | none => .misfit old
    | _ => .misfit old

/-- A truth value. -/
def fillBool : Filler Bool := fun old s =>
  match s.head? with
  | some 'n' => .fit old
  | some 't' => .fit true
  | some 'f' => .fit false
  | _ => .misfit old

/-- A field that keeps the text of its value, null included. -/
def fillRaw : Filler String := fun _ s => .fit (.ofList s)

/-- A value that may be missing: null removes it, and anything else is decoded over what is there or
over `blank`. -/
def fillOption (blank : α) (fill : Filler α) : Filler (Option α) := fun old s =>
  if isNullText s then .fit none
  else
    let r := fill (old.getD blank) s
    ⟨some r.value, r.fits⟩

/-- Decodes item texts one by one, over the items of the older list while it has any. -/
def fillItems (blank : α) (fill : Filler α) : List α → List (List Char) → Filled (List α)
  | _, [] => .fit []
  | old, s :: rest =>
    let r := fill (old.head?.getD blank) s
    let rs := fillItems blank fill old.tail rest
    ⟨r.value :: rs.value, r.fits && rs.fits⟩

/-- A list that may be missing. -/
def fillList (blank : α) (fill : Filler α) : Filler (Option (List α)) := fun old s =>
  if isNullText s then .fit none
  else
    match items? s with
    | some items =>
      let r := fillItems blank fill (old.getD []) items
      ⟨some r.value, r.fits⟩
    | none => .misfit old

/-- A named member of a record. -/
structure RecordField (σ : Type u) where
  name : String
  fill : Filler σ

/-- The field of a record that `get` reads and `set` replaces. -/
def field (name : String) (get : σ → α) (set : σ → α → σ) (fill : Filler α) : RecordField σ :=
  ⟨name, fun old s =>
    let r := fill (get old) s
    ⟨set old r.value, r.fits⟩⟩

/-- The field that a key addresses: the one of that very name, or else the one that differs from it
in case only. -/
def fieldNamed? (fields : List (RecordField σ)) (key : String) : Option (RecordField σ) :=
  (fields.find? (·.name == key)).or (fields.find? (Text.spells ·.name key))

/-- Decodes members in order. -/
def fillMembers (fields : List (RecordField σ)) : σ → List (String × List Char) → Filled σ
  | old, [] => .fit old
  | old, (key, s) :: rest =>
    match fieldNamed? fields key with
    | none => fillMembers fields old rest
    | some f =>
      let r := f.fill old s
      let rs := fillMembers fields r.value rest
      ⟨rs.value, r.fits && rs.fits⟩

/-- A record with the given fields. -/
def fillRecord (fields : List (RecordField σ)) : Filler σ := fun old s =>
  if isNullText s then .fit old
  else
    match members? s with
    | some members => fillMembers fields old members
    | none => .misfit old

/-- A map from names to values: later members win. -/
def fillMap (blank : α) (fill : Filler α) : Filler (List (String × α)) := fun old s =>
  if isNullText s then .fit old
  else
    match members? s with
    | none => .misfit old
    | some members =>
      members.foldl (fun acc m =>
        let r := fill blank m.2
        ⟨acc.value.filter (·.1 != m.1) ++ [(m.1, r.value)], acc.fits && r.fits⟩) (.fit old)

/-- Decodes a whole text over a blank value. A text that is no JSON leaves the blank value. -/
def decodeFilled (blank : α) (fill : Filler α) (s : List Char) : Filled α :=
  match document? s with
  | some v => fill blank v
  | none => .misfit blank

/-- Decodes a whole text, or nothing when some part of it does not fit. -/
def decode? (blank : α) (fill : Filler α) (s : List Char) : Option α :=
  let r := decodeFilled blank fill s
  if r.fits then some r.value else none

/-- Decodes the first value of a text and ignores what follows it. -/
def decodeFirst? (blank : α) (fill : Filler α) (s : List Char) : Option α :=
  match splitFirst s with
  | some (v, _) =>
    let r := fill blank v
    if r.fits then some r.value else none
  | none => none

end ReviewQueue.Json
