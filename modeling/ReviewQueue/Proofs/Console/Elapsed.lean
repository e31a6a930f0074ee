import Mathlib.Data.List.TakeWhile
import ReviewQueue.Console.Elapsed
import ReviewQueue.Proofs.Text.Decimal

/-!
# Spans of time read back

A reader of hours, minutes and seconds, which knows nothing of how spans are written, reads the text
of a span exactly when the span is a whole number of seconds (`readSpan?_spanText`). A time that is
shown is counted in nanoseconds first, in a word that it may not fit. So it is read back as long as
it fits, and not beyond (`elapsed_read_back_iff`); beyond, two times can look alike
(`elapsed_alike_beyond`).
-/

namespace ReviewQueue.Console

/-! ## Reading -/

/-- Reads a number that a unit follows. -/
def readUnit? (unit : Char) (s : List Char) : Option (Nat × List Char) :=
  match s.takeWhile Text.isDigit, s.dropWhile Text.isDigit with
  | d :: digits, c :: rest =>
    if c = unit then some (Text.digitsValue (d :: digits), rest) else none
  | _, _ => none

/-- Reads a number that a unit follows; without one it is zero. -/
def readUnit (unit : Char) (s : List Char) : Nat × List Char :=
  (readUnit? unit s).getD (0, s)

/-- Reads hours, minutes and seconds, of which only the seconds must be there. -/
def readSpan? (s : List Char) : Option Nat :=
  let (hours, s) := readUnit 'h' s
  let (minutes, s) := readUnit 'm' s
  match readUnit? 's' s with
  | some (seconds, []) => some (3600 * hours + 60 * minutes + seconds)
  | _ => none

/-- Reads the seconds back from a time as it is shown. -/
def readElapsed? (text : String) : Option Int :=
  (readSpan? text.toList).map Int.ofNat

theorem readUnit?_decimal (unit : Char) (n : Nat) {c : Char} (hc : Text.isDigit c = false)
    (rest : List Char) :
    readUnit? unit (Text.decimal n ++ c :: rest) = if c = unit then some (n, rest) else none := by
  have hdigits : ∀ d ∈ Text.decimal n, Text.isDigit d = true := fun d => Text.isDigit_of_mem_decimal
  have hstop : ¬ Text.isDigit c = true := by simp [hc]
  have htake : (Text.decimal n ++ c :: rest).takeWhile Text.isDigit = Text.decimal n := by
    rw [List.takeWhile_append_of_pos hdigits, List.takeWhile_cons_of_neg hstop, List.append_nil]
  have hdrop : (Text.decimal n ++ c :: rest).dropWhile Text.isDigit = c :: rest := by
    rw [List.dropWhile_append_of_pos hdigits, List.dropWhile_cons_of_neg hstop]
  obtain ⟨d, digits, hcons⟩ := List.exists_cons_of_ne_nil (Text.decimal_ne_nil n)
  unfold readUnit?
  rw [htake, hdrop, hcons]
  simp only [← hcons, Text.digitsValue_decimal]

/-- What starts with something else than a digit has no number. -/
theorem readUnit?_of_not_digit (unit : Char) {c : Char} (hc : Text.isDigit c = false)
    (rest : List Char) : readUnit? unit (c :: rest) = none := by
  unfold readUnit?
  rw [List.takeWhile_cons_of_neg (by simp [hc])]

theorem readUnit_of_some {unit : Char} {s : List Char} {r : Nat × List Char}
    (h : readUnit? unit s = some r) : readUnit unit s = r := by
  unfold readUnit
  rw [h]
  rfl

theorem readUnit_of_none {unit : Char} {s : List Char} (h : readUnit? unit s = none) :
    readUnit unit s = (0, s) := by
  unfold readUnit
  rw [h]
  rfl

/-- What is read once the hours and the minutes are. -/
theorem readSpan?_of_units {s afterHours afterMinutes : List Char} {hours minutes : Nat}
    (hhours : readUnit 'h' s = (hours, afterHours))
    (hminutes : readUnit 'm' afterHours = (minutes, afterMinutes)) :
    readSpan? s =
      match readUnit? 's' afterMinutes with
      | some (seconds, []) => some (3600 * hours + 60 * minutes + seconds)
      | _ => none := by
  unfold readSpan?
  simp only [hhours, hminutes]

/-- Without a unit that is read nothing is. -/
theorem readSpan?_of_none {s : List Char} (h : ∀ unit ∈ ['h', 'm', 's'], readUnit? unit s = none) :
    readSpan? s = none := by
  rw [readSpan?_of_units (readUnit_of_none (h 'h' (by decide)))
    (readUnit_of_none (h 'm' (by decide))), h 's' (by decide)]

theorem readSpan?_of_not_digit {c : Char} (hc : Text.isDigit c = false) (rest : List Char) :
    readSpan? (c :: rest) = none :=
  readSpan?_of_none fun unit _ => readUnit?_of_not_digit unit hc rest

/-! ## How spans are written -/

/-- Digits that are all zeros are those of zero. -/
theorem forall_zero_iff (places n : Nat) : (∀ c ∈ Text.padded places n, c = '0') ↔ n = 0 := by
  constructor
  · intro h
    have hvalue := Text.digitsValue_padded places n
    rw [List.eq_replicate_of_mem h] at hvalue
    have hzeros := Text.digitsValue_zeros [] (Text.padded places n).length
    rw [List.nil_append, show Text.digitsValue [] = 0 from rfl, Nat.zero_mul] at hzeros
    omega
  · rintro rfl c hc
    unfold Text.padded at hc
    rw [Text.decimal_zero] at hc
    rcases List.mem_append.mp hc with h | h
    · exact List.eq_of_mem_replicate h
    · exact List.mem_singleton.mp h

/-- A count of decimal places is written as its whole part, and a point follows unless the count is
whole. -/
theorem exists_decimalText (count places : Nat) :
    ∃ tail, decimalText count places = Text.decimal (count / 10 ^ places) ++ tail ∧
      (count % 10 ^ places = 0 → tail = []) ∧
      (count % 10 ^ places ≠ 0 → ∃ digits, tail = '.' :: digits) := by
  have hstripped : ((Text.padded places (count % 10 ^ places)).reverse.dropWhile
      (· == '0')).reverse = [] ↔ count % 10 ^ places = 0 := by
    rw [List.reverse_eq_nil_iff, List.dropWhile_eq_nil_iff, ← forall_zero_iff places]
    simp
  unfold decimalText
  simp only [Nat.pow_eq]
  refine ⟨_, rfl, fun h => ?_, fun h => ?_⟩
  · rw [hstripped.mpr h]
  · obtain ⟨d, digits, hcons⟩ := List.exists_cons_of_ne_nil (mt hstripped.mp h)
    rw [hcons]
    exact ⟨_, rfl⟩

/-- What is read after the hours and the minutes. -/
theorem readUnit?_decimalText (count places : Nat) (unit c : Char) (rest : List Char)
    (hc : Text.isDigit c = false) (hunit : unit ≠ '.') :
    readUnit? unit (decimalText count places ++ c :: rest) =
      if count % 10 ^ places = 0 ∧ c = unit then some (count / 10 ^ places, rest) else none := by
  obtain ⟨tail, htext, hwhole, hpoint⟩ := exists_decimalText count places
  rw [htext, List.append_assoc]
  by_cases hcount : count % 10 ^ places = 0
  · rw [hwhole hcount, List.nil_append, readUnit?_decimal unit _ hc]
    simp only [hcount, true_and]
  · obtain ⟨digits, htail⟩ := hpoint hcount
    rw [htail, List.cons_append, readUnit?_decimal unit _ (by decide), if_neg (Ne.symm hunit),
      if_neg (fun h => hcount h.1)]

/-- A span of less than a second is read only when it is none at all. -/
theorem readSpan?_shortSpan (n : Nat) :
    readSpan? (shortSpan n) = if n = 0 then some 0 else none := by
  have hpoint {unit : Char} (hunit : unit ∈ ['h', 'm', 's']) : unit ≠ '.' := by
    rintro rfl
    exact absurd hunit (by decide)
  unfold shortSpan
  split
  · rfl
  · split
    · -- nanoseconds
      apply readSpan?_of_none
      intro unit hunit
      rw [readUnit?_decimal unit n (by decide), if_neg]
      rintro rfl
      exact absurd hunit (by decide)
    · split
      · -- microseconds
        apply readSpan?_of_none
        intro unit hunit
        rw [readUnit?_decimalText n 3 unit _ _ (by decide) (hpoint hunit), if_neg]
        rintro ⟨-, rfl⟩
        exact absurd hunit (by decide)
      · -- milliseconds are read as minutes, and then seconds are missing
        have hms (unit : Char) := readUnit?_decimalText n 6 unit 'm' ['s'] (by decide)
        by_cases hwhole : n % 10 ^ 6 = 0
        · have hhours := hms 'h' (by decide)
          have hminutes := hms 'm' (by decide)
          rw [if_neg fun h => absurd h.2 (by decide)] at hhours
          rw [if_pos ⟨hwhole, rfl⟩] at hminutes
          rw [readSpan?_of_units (readUnit_of_none hhours) (readUnit_of_some hminutes),
            readUnit?_of_not_digit 's' (by decide)]
        · apply readSpan?_of_none
          intro unit hunit
          rw [hms unit (hpoint hunit), if_neg fun h => hwhole h.1]

/-- A span of a second or more is read exactly when it is whole. -/
theorem readSpan?_longSpan (n : Nat) :
    readSpan? (longSpan n) =
      if n % 1000000000 = 0 then some (n / 1000000000) else none := by
  have hseconds (unit : Char) (hunit : unit ≠ '.') :
      readUnit? unit (decimalText (n % 60000000000) 9 ++ ['s']) =
        if n % 1000000000 = 0 ∧ 's' = unit then some (n % 60000000000 / 1000000000, [])
        else none := by
    have hnanos : n % 60000000000 % 1000000000 = n % 1000000000 := by omega
    rw [readUnit?_decimalText _ 9 unit 's' [] (by decide) hunit,
      show 10 ^ 9 = 1000000000 from rfl, hnanos]
  have hnone (unit : Char) (hpoint : unit ≠ '.') (hunit : 's' ≠ unit) :
      readUnit unit (decimalText (n % 60000000000) 9 ++ ['s']) =
        (0, decimalText (n % 60000000000) 9 ++ ['s']) := by
    apply readUnit_of_none
    rw [hseconds unit hpoint, if_neg fun h => hunit h.2]
  -- the hours and the minutes that were read are those that the seconds leave
  have hread {s afterHours : List Char} {hours minutes : Nat}
      (hhours : readUnit 'h' s = (hours, afterHours))
      (hminutes : readUnit 'm' afterHours =
        (minutes, decimalText (n % 60000000000) 9 ++ ['s']))
      (hsum : 3600 * hours + 60 * minutes = n / 60000000000 * 60) :
      readSpan? s = if n % 1000000000 = 0 then some (n / 1000000000) else none := by
    rw [readSpan?_of_units hhours hminutes, hseconds 's' (by decide)]
    by_cases hwhole : n % 1000000000 = 0
    · simp only [hwhole, and_self, if_true, Option.some.injEq]
      omega
    · simp only [hwhole, false_and, if_false]
  have hunit (unit : Char) (m : Nat) (rest : List Char) (hc : Text.isDigit unit = false) :
      readUnit unit (Text.decimal m ++ unit :: rest) = (m, rest) := by
    apply readUnit_of_some
    rw [readUnit?_decimal unit m hc, if_pos rfl]
  unfold longSpan
  simp only
  split
  · -- seconds alone
    apply hread (hnone 'h' (by decide) (by decide)) (hnone 'm' (by decide) (by decide))
    omega
  · split
    · -- minutes and seconds
      refine hread (readUnit_of_none ?_) (hunit 'm' _ _ (by decide)) (by omega)
      rw [readUnit?_decimal 'h' _ (by decide), if_neg (by decide)]
    · -- hours, minutes and seconds
      refine hread (hunit 'h' _ _ (by decide)) (hunit 'm' _ _ (by decide)) (by omega)

/-- **Spans are read back when they are whole.** The text of a span that is not negative is read as
hours, minutes and seconds exactly when it is a whole number of seconds, and as that number. -/
theorem readSpan?_spanText (n : Nat) :
    readSpan? (spanText n) = if n % 1000000000 = 0 then some (n / 1000000000) else none := by
  unfold spanText
  simp only [Int.natAbs_natCast]
  rw [if_neg (by omega)]
  split
  · rename_i hshort
    rw [readSpan?_shortSpan]
    split
    · rename_i hzero
      rw [hzero]
      rfl
    · rw [if_neg (by omega)]
  · exact readSpan?_longSpan n

theorem readSpan?_negative {n : Int} (h : n < 0) : readSpan? (spanText n) = none := by
  unfold spanText
  simp only [if_pos h]
  exact readSpan?_of_not_digit (by decide) _

/-! ## Times -/

/-- The most seconds whose nanoseconds fit a word. -/
def longestSpan : Int := wordMax / nanosPerSecond

theorem elapsed_of_pos {seconds : Int} (h : 0 < seconds) :
    (elapsed seconds).toList = spanText (wrapWord (seconds * nanosPerSecond)) := by
  unfold elapsed
  rw [if_neg (by omega), String.toList_ofList]

/-- A time that fits is counted as it is. -/
theorem wrapWord_of_le {seconds : Int} (hpos : 0 < seconds) (hle : seconds ≤ longestSpan) :
    wrapWord (seconds * nanosPerSecond) = seconds * nanosPerSecond := by
  unfold longestSpan wordMax nanosPerSecond at hle
  unfold wrapWord nanosPerSecond
  apply Int.bmod_eq_of_le <;> omega

/-- No time is counted as more than what fits. -/
theorem wrapWord_le (n : Int) : wrapWord n ≤ wordMax := by
  unfold wrapWord wordMax
  have h := Int.bmod_lt (x := n) (m := 18446744073709551616) (by decide)
  omega

/-- What is read back from a time as it is shown: what it was counted as, if that is a whole number
of seconds and not negative. -/
theorem readElapsed?_elapsed {seconds : Int} (h : 0 < seconds) :
    readElapsed? (elapsed seconds) =
      let nanos := wrapWord (seconds * nanosPerSecond)
      if 0 ≤ nanos ∧ nanos % nanosPerSecond = 0 then some (nanos / nanosPerSecond) else none := by
  unfold readElapsed?
  rw [elapsed_of_pos h]
  generalize wrapWord (seconds * nanosPerSecond) = nanos
  simp only
  by_cases hsign : 0 ≤ nanos
  · obtain ⟨n, rfl⟩ := Int.eq_ofNat_of_zero_le hsign
    rw [readSpan?_spanText]
    unfold nanosPerSecond
    by_cases hwhole : n % 1000000000 = 0
    · rw [if_pos hwhole, if_pos (by omega)]
      rfl
    · rw [if_neg hwhole, if_neg (by omega)]
      rfl
  · rw [readSpan?_negative (by omega), if_neg (by omega)]
    rfl

/-- **Times are read back as long as their nanoseconds fit a word.** The text of a time of a second
or more is read back as that time exactly when the time is not longer than `longestSpan`, about 292
years. Up to there different times have different texts. -/
theorem elapsed_read_back_iff (seconds : Int) (hpos : 0 < seconds) :
    (readElapsed? (elapsed seconds) = some seconds ↔ seconds ≤ longestSpan) ∧
      (seconds ≤ longestSpan → ∀ other, 0 < other → other ≤ longestSpan →
        elapsed seconds = elapsed other → seconds = other) := by
  have hfits {time : Int} (htime : 0 < time) (hle : time ≤ longestSpan) :
      readElapsed? (elapsed time) = some time := by
    have hnanos := wrapWord_of_le htime hle
    rw [readElapsed?_elapsed htime, hnanos]
    unfold nanosPerSecond
    simp only
    rw [if_pos (by omega), Int.mul_ediv_cancel _ (by decide)]
  refine ⟨⟨fun hread => ?_, hfits hpos⟩, fun hle other hother hle' heq => ?_⟩
  · rw [readElapsed?_elapsed hpos] at hread
    simp only at hread
    split at hread
    · -- whatever is read was counted in a word
      have hmax := wrapWord_le (seconds * nanosPerSecond)
      obtain hread := Option.some.inj hread
      rw [← hread]
      exact Int.ediv_le_ediv (by decide) hmax
    · cases hread
  · have hread := hfits hpos hle
    rw [heq, hfits hother hle'] at hread
    exact (Option.some.inj hread).symm

/-- The longest time that is read back. -/
theorem longest_elapsed_read_back : 0 < (9223372036 : Int) ∧
    readElapsed? (elapsed 9223372036) = some 9223372036 ∧
      (elapsed 9223372036 = elapsed 1 → (9223372036 : Int) = 1) := by
  have h := elapsed_read_back_iff 9223372036 (by decide)
  exact ⟨by decide, h.1.mpr (by decide), h.2 (by decide) 1 (by decide) (by decide)⟩

/-- Beyond, a time that fits a word can look like one second. -/
theorem elapsed_alike_beyond : 0 < (36028797018963969 : Int) ∧ 36028797018963969 ≤ wordMax ∧
    elapsed 36028797018963969 = elapsed 1 ∧
      readElapsed? (elapsed 36028797018963969) = some 1 := by
  have hwraps : wrapWord (36028797018963969 * nanosPerSecond) = 1000000000 := by decide
  have hone : wrapWord (1 * nanosPerSecond) = 1000000000 := by decide
  refine ⟨by decide, by decide, ?_, ?_⟩
  · rw [← String.toList_inj, elapsed_of_pos (by decide), elapsed_of_pos (by decide), hwraps, hone]
  · rw [readElapsed?_elapsed (by decide), hwraps]
    decide

end ReviewQueue.Console
