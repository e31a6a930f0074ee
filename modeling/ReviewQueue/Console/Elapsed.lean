import ReviewQueue.Timestamp

/-! Spans of time as people read them: hours, minutes and seconds.

A span is counted in nanoseconds in a signed 64-bit word, so a number of seconds beyond about 292
years wraps around and shows as another span. -/

namespace ReviewQueue.Console

/-- The nanoseconds of a second. -/
def nanosPerSecond : Int := 1000000000

/-- A count of the last of so many decimal places, as a number; zeros at the end are dropped. -/
def decimalText (count places : Nat) : List Char :=
  let digits := Text.padded places (count % Nat.pow 10 places)
  Text.decimal (count / Nat.pow 10 places) ++
    (match (digits.reverse.dropWhile (· == '0')).reverse with
    | [] => []
    | d => '.' :: d)

/-- A span of less than a second, in the largest unit that it fills. -/
def shortSpan (nanos : Nat) : List Char :=
  if nanos = 0 then ['0', 's']
  else if nanos < 1000 then Text.decimal nanos ++ ['n', 's']
  else if nanos < 1000000 then decimalText nanos 3 ++ [Char.ofNat 0xB5, 's']
  else decimalText nanos 6 ++ ['m', 's']

/-- A span of a second or more: seconds, and minutes and hours once they are reached. -/
def longSpan (nanos : Nat) : List Char :=
  let minutes := nanos / 60000000000
  let seconds := decimalText (nanos % 60000000000) 9 ++ ['s']
  if minutes = 0 then seconds
  else
    let hours := minutes / 60
    let rest := Text.decimal (minutes % 60) ++ 'm' :: seconds
    if hours = 0 then rest else Text.decimal hours ++ 'h' :: rest

/-- The text of a span. -/
def spanText (nanos : Int) : List Char :=
  let n := nanos.natAbs
  let text := if n < 1000000000 then shortSpan n else longSpan n
  if nanos < 0 then '-' :: text else text

/-- A number of seconds as a span; no time is a dash. -/
def elapsed (seconds : Int) : String :=
  if seconds ≤ 0 then "-" else .ofList (spanText (wrapWord (seconds * nanosPerSecond)))

end ReviewQueue.Console
