import ReviewQueue.Timestamp

/-! Where times and new ids come from. -/

namespace ReviewQueue

/-- A clock that also gives out ids: its `k`-th reading is a time and an id. -/
structure Clock where
  time : Nat → Timestamp
  id : Nat → String
  /-- How many readings were taken. -/
  readings : Nat := 0

namespace Clock

/-- The time of the next reading. -/
def now (c : Clock) : Timestamp := c.time c.readings

/-- The id of the next reading. -/
def fresh (c : Clock) : String := c.id c.readings

/-- The clock after a reading. -/
def tick (c : Clock) : Clock := { c with readings := c.readings + 1 }

/-- The civil date of a day, counted from the first of March of the year zero. -/
def civil (day : Nat) : Nat × Nat × Nat :=
  let era := day / 146097
  let dayOfEra := day % 146097
  let year := (dayOfEra - dayOfEra / 1460 + dayOfEra / 36524 - dayOfEra / 146096) / 365
  let dayOfYear := dayOfEra - (365 * year + year / 4 - year / 100)
  let month := (5 * dayOfYear + 2) / 153
  let year := year + era * 400
  (if month < 10 then year else year + 1, if month < 10 then month + 3 else month - 9,
    dayOfYear - (153 * month + 2) / 5 + 1)

/-- The time of a number of nanoseconds since the start of 1970, in UTC. -/
def ofNanos (nanos : Nat) : Timestamp :=
  let seconds := nanos / 1000000000
  let (year, month, day) := civil (seconds / 86400 + 719468)
  { year, month, day
    hour := seconds % 86400 / 3600
    minute := seconds % 3600 / 60
    second := seconds % 60
    nanos := nanos % 1000000000
    offset := 0 }

/-- The digits in which ids are written. -/
def idDigits : List Char := "0123456789ABCDEFGHJKMNPQRSTVWXYZ".toList

/-- The last digits of a number as an id. -/
def idText : Nat → Nat → List Char → List Char
  | 0, _, after => after
  | width + 1, n, after => idText width (n / 32) (idDigits[n % 32]?.getD '0' :: after)

/-- A clock that starts at a number of nanoseconds, with a seed for its ids. Ids of later times are
greater. -/
def ofStart (nanos seed : Nat) : Clock :=
  { time := fun k => ofNanos (nanos + k * 1000)
    id := fun k =>
      .ofList (idText 10 (nanos / 1000000) [] ++ idText 16 (seed % Nat.pow 2 76 + k) []) }

end Clock
end ReviewQueue
