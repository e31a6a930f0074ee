import ReviewQueue.Json.Fill

/-! Points in time as they are written in RFC 3339: a date, a time of day with up to nine decimals
of a second, and a distance to UTC. A timestamp keeps the zone it was written with. -/

namespace ReviewQueue

/-- A civil date and time with its distance to UTC in minutes. -/
structure Timestamp where
  year : Nat
  month : Nat
  day : Nat
  hour : Nat
  minute : Nat
  second : Nat
  nanos : Nat
  offset : Int
  deriving DecidableEq, Repr

namespace Timestamp

/-- The time that stands for "not given". -/
def zero : Timestamp := ⟨1, 1, 1, 0, 0, 0, 0, 0⟩

instance : Inhabited Timestamp := ⟨zero⟩

/-- Whether the time stands for "not given". -/
def isZero (t : Timestamp) : Bool := t == zero

/-- Whether a year has a 29th of February. -/
def isLeap (year : Nat) : Bool :=
  year % 4 == 0 && (year % 100 != 0 || year % 400 == 0)

/-- The number of days of a month. -/
def daysIn (year month : Nat) : Nat :=
  if month = 2 then (if isLeap year then 29 else 28)
  else if month = 4 ∨ month = 6 ∨ month = 9 ∨ month = 11 then 30
  else 31

/-- A number that grows with date and time of day; times of one zone are compared by it. -/
def rank (t : Timestamp) : Nat :=
  (((((t.year * 13 + t.month) * 32 + t.day) * 24 + t.hour) * 60 + t.minute) * 60 + t.second) *
    1000000000 + t.nanos

/-! ## Writing -/

/-- The decimals of a second, without trailing zeros, and with their point when there are any. -/
def fractionText (nanos : Nat) : List Char :=
  match ((Text.padded 9 nanos).reverse.dropWhile (· == '0')).reverse with
  | [] => []
  | digits => '.' :: digits

/-- The zone: `Z` for UTC, else a sign, hours and minutes. -/
def zoneText (offset : Int) : List Char :=
  if offset = 0 then ['Z']
  else
    (if offset < 0 then '-' else '+') :: Text.padded 2 (offset.natAbs / 60) ++
      ':' :: Text.padded 2 (offset.natAbs % 60)

/-- The date. -/
def dateText (t : Timestamp) : List Char :=
  Text.padded 4 t.year ++ '-' :: Text.padded 2 t.month ++ '-' :: Text.padded 2 t.day

/-- The hour and the minute. -/
def clockText (t : Timestamp) : List Char :=
  Text.padded 2 t.hour ++ ':' :: Text.padded 2 t.minute

/-- The RFC 3339 form without the decimals of the second. -/
def secondText (t : Timestamp) : String :=
  .ofList (dateText t ++ 'T' :: clockText t ++ ':' :: Text.padded 2 t.second ++ zoneText t.offset)

/-- The RFC 3339 form. -/
def text (t : Timestamp) : List Char :=
  dateText t ++ 'T' :: clockText t ++ ':' :: Text.padded 2 t.second ++
    fractionText t.nanos ++ zoneText t.offset

/-- The date and the minute, for a column of a table. -/
def minuteText (t : Timestamp) : String :=
  .ofList (dateText t ++ ' ' :: clockText t)

/-- The JSON form, which only a zone of less than a day has. -/
def json? (t : Timestamp) : Option (List Char) :=
  if t.offset.natAbs < 1440 then some ('"' :: text t ++ ['"']) else none

/-! ## Reading -/

/-- Reads exactly `n` digits. -/
def readFixed (n : Nat) (s : List Char) : Option (Nat × List Char) :=
  let digits := s.take n
  if digits.length = n ∧ digits.all Text.isDigit then some (Text.digitsValue digits, s.drop n)
  else none

/-- Reads two digits, or one that no other digit follows. -/
def readOneOrTwo (s : List Char) : Option (Nat × List Char) :=
  (readFixed 2 s).or (readFixed 1 s)

/-- Drops an expected character. -/
def expect (c : Char) : List Char → Option (List Char)
  | d :: rest => if d = c then some rest else none
  | [] => none

/-- Reads the decimals of a second after a point or a comma; digits past the ninth are dropped. -/
def readFraction (s : List Char) : Nat × List Char :=
  match s with
  | c :: rest =>
    let digits := rest.takeWhile Text.isDigit
    if (c = '.' ∨ c = ',') ∧ digits ≠ [] then
      let nine := digits.take 9
      (Text.digitsValue nine * Nat.pow 10 (9 - nine.length), rest.dropWhile Text.isDigit)
    else (0, s)
  | [] => (0, s)

/-- Reads the zone, which ends the text, as minutes to the east of UTC. -/
def readZone (s : List Char) : Option Int :=
  match s with
  | ['Z'] => some 0
  | sign :: rest => do
    let (hours, rest) ← readFixed 2 rest
    let rest ← expect ':' rest
    let (minutes, rest) ← readFixed 2 rest
    if rest ≠ [] ∨ hours > 24 ∨ minutes > 60 then none
    else if sign = '+' then some (hours * 60 + minutes)
    else if sign = '-' then some (-(hours * 60 + minutes))
    else none
  | [] => none

/-- A time, unless its date or time of day is none. -/
def ofDate? (t : Timestamp) : Option Timestamp :=
  if 1 ≤ t.month ∧ t.month ≤ 12 ∧ 1 ≤ t.day ∧ t.day ≤ daysIn t.year t.month ∧ t.hour < 24 ∧
      t.minute < 60 ∧ t.second < 60 then
    some t
  else none

/-- Reads an RFC 3339 text. -/
def parse? (s : List Char) : Option Timestamp := do
  let (year, s) ← readFixed 4 s
  let s ← expect '-' s
  let (month, s) ← readFixed 2 s
  let s ← expect '-' s
  let (day, s) ← readFixed 2 s
  let s ← expect 'T' s
  let (hour, s) ← readOneOrTwo s
  let s ← expect ':' s
  let (minute, s) ← readFixed 2 s
  let s ← expect ':' s
  let (second, s) ← readFixed 2 s
  let (nanos, s) := readFraction s
  let offset ← readZone s
  ofDate? ⟨year, month, day, hour, minute, second, nanos, offset⟩

/-- A timestamp in JSON is a string, read as it is spelled; null leaves the older value. -/
def fill : Json.Filler Timestamp := fun old s =>
  if Json.isNullText s then .fit old
  else
    match s with
    | '"' :: rest =>
      match parse? rest.dropLast with
      | some t => .fit t
      | none => .misfit zero
    | _ => .misfit old

end Timestamp
end ReviewQueue
