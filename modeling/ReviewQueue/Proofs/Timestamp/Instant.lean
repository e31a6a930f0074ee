import ReviewQueue.Proofs.Store.Clock

/-!
# Instants

The instant of a time is the number of nanoseconds that have passed at it, whatever its zone. It is
what "earlier" means. Times in UTC are compared by their fields (`rank`) and stored as texts
(`column`); both orders are the order of the instants, since the calendar counts every day once.

* `dayNumber_lt` — later dates have greater day numbers;
* `instant_lt_iff` — the order of the fields is the order of the instants;
* `column_lt_iff` — and so is the order of the columns.
-/

namespace ReviewQueue.Timestamp

/-! ## Counting days -/

/-- The number of days of a year. -/
def daysOfYear (year : Nat) : Nat := if isLeap year then 366 else 365

/-- The number of days before a year, from the year zero on. -/
def daysBeforeYear : Nat → Nat
  | 0 => 0
  | year + 1 => daysBeforeYear year + daysOfYear year

/-- The number of days of a year before one of its months. -/
def daysBeforeMonth (year : Nat) : Nat → Nat
  | 0 => 0
  | month + 1 => daysBeforeMonth year month + if month = 0 then 0 else daysIn year month

/-- The number of the day of a time. The first day of the year zero is the first. -/
def dayNumber (t : Timestamp) : Nat :=
  daysBeforeYear t.year + daysBeforeMonth t.year t.month + t.day

/-- The instant of a time, in nanoseconds. -/
def instant (t : Timestamp) : Int :=
  ((((t.dayNumber : Int) * 24 + t.hour) * 60 + t.minute - t.offset) * 60 + t.second) * 1000000000 +
    t.nanos

theorem daysBeforeYear_add_le {year later : Nat} (h : year < later) :
    daysBeforeYear year + daysOfYear year ≤ daysBeforeYear later := by
  induction later with
  | zero => omega
  | succ last ih =>
      rw [daysBeforeYear]
      rcases Nat.lt_succ_iff_lt_or_eq.mp h with hlt | rfl
      · have := ih hlt
        omega
      · omega

theorem daysBeforeMonth_add_le (year : Nat) {month later : Nat} (hmonth : 1 ≤ month)
    (h : month < later) :
    daysBeforeMonth year month + daysIn year month ≤ daysBeforeMonth year later := by
  induction later with
  | zero => omega
  | succ last ih =>
      rw [daysBeforeMonth]
      rcases Nat.lt_succ_iff_lt_or_eq.mp h with hlt | rfl
      · have := ih hlt
        omega
      · rw [if_neg (by omega)]

/-- The months of a year make up the year. -/
theorem daysBeforeMonth_thirteen (year : Nat) : daysBeforeMonth year 13 = daysOfYear year := by
  unfold daysOfYear
  by_cases hleap : isLeap year = true
  · simp [daysBeforeMonth, daysIn, hleap]
  · simp [daysBeforeMonth, daysIn, hleap]

variable {a b : Timestamp}

/-- A day of a year comes before the next year. -/
theorem IsReal.dayNumber_le (h : a.IsReal) :
    a.dayNumber ≤ daysBeforeYear a.year + daysOfYear a.year := by
  have hyear : a.month < 13 := by
    have := h.month.2
    omega
  have hmonth := daysBeforeMonth_add_le a.year h.month.1 hyear
  rw [daysBeforeMonth_thirteen] at hmonth
  have := h.day.2
  unfold dayNumber
  omega

/-- **Later dates have greater numbers.** Dates are compared field by field. -/
theorem dayNumber_lt (ha : a.IsReal) (hb : b.IsReal)
    (h : a.year < b.year ∨ a.year = b.year ∧
      (a.month < b.month ∨ a.month = b.month ∧ a.day < b.day)) :
    a.dayNumber < b.dayNumber := by
  rcases h with hyear | ⟨hyear, hmonth | ⟨hmonth, hday⟩⟩
  · -- all of the earlier year is over
    have hover := daysBeforeYear_add_le hyear
    have hle := ha.dayNumber_le
    have hfirst := hb.day.1
    show a.dayNumber < daysBeforeYear b.year + daysBeforeMonth b.year b.month + b.day
    omega
  · -- all of the earlier month is over
    have hover := daysBeforeMonth_add_le a.year ha.month.1 hmonth
    have hle := ha.day.2
    have hfirst := hb.day.1
    unfold dayNumber
    rw [← hyear]
    omega
  · unfold dayNumber
    rw [hyear, hmonth]
    omega

/-! ## The three orders -/

/-- The fields of a time can be told from its rank. -/
theorem eq_of_rank_eq (ha : a.IsReal) (hb : b.IsReal) (hzone : a.offset = b.offset)
    (h : a.rank = b.rank) : a = b := by
  have hdays := daysIn_le a.year a.month
  have hdays' := daysIn_le b.year b.month
  obtain ⟨year, month, day, hour, minute, second, nanos, offset⟩ := a
  obtain ⟨year', month', day', hour', minute', second', nanos', offset'⟩ := b
  obtain ⟨-, hmonth, hday, hhour, hminute, hsecond, hnanos⟩ := ha
  obtain ⟨-, hmonth', hday', hhour', hminute', hsecond', hnanos'⟩ := hb
  simp only [rank] at *
  simp only [Timestamp.mk.injEq]
  omega

/-- A greater rank is a later date, or a later time on the same date. -/
theorem instant_lt_of_rank_lt (ha : a.IsReal) (hb : b.IsReal) (hzone : a.offset = b.offset)
    (h : a.rank < b.rank) : a.instant < b.instant := by
  have hdays := daysIn_le a.year a.month
  have hdays' := daysIn_le b.year b.month
  have hnumber := dayNumber_lt ha hb
  -- on one date the time of day decides
  have hsame : a.year = b.year ∧ a.month = b.month ∧ a.day = b.day →
      a.dayNumber = b.dayNumber := by
    rintro ⟨hyear, hmonth, hday⟩
    unfold dayNumber
    rw [hyear, hmonth, hday]
  obtain ⟨-, hmonth, hday, hhour, hminute, hsecond, hnanos⟩ := ha
  obtain ⟨-, hmonth', hday', hhour', hminute', hsecond', hnanos'⟩ := hb
  unfold rank at h
  unfold instant
  by_cases hdate : a.year = b.year ∧ a.month = b.month ∧ a.day = b.day
  · have hday := hsame hdate
    obtain ⟨hyear, hmonth, hday⟩ := hdate
    omega
  · have hlt : a.dayNumber < b.dayNumber := hnumber (by omega)
    omega

/-- **Times in UTC are ordered by their fields as they are by their instants.** -/
theorem instant_lt_iff (ha : a.IsUtc) (hb : b.IsUtc) : a.instant < b.instant ↔ a.rank < b.rank := by
  have hzone : a.offset = b.offset := ha.zone.trans hb.zone.symm
  constructor
  · intro h
    by_contra hnot
    rcases Nat.lt_or_eq_of_le (Nat.le_of_not_lt hnot) with hlt | heq
    · have := instant_lt_of_rank_lt hb.isReal ha.isReal hzone.symm hlt
      omega
    · rw [eq_of_rank_eq hb.isReal ha.isReal hzone.symm heq] at h
      omega
  · exact instant_lt_of_rank_lt ha.isReal hb.isReal hzone

/-- **The columns of times in UTC are ordered as their instants.** -/
theorem column_lt_iff (ha : a.IsUtc) (hb : b.IsUtc) :
    a.column < b.column ↔ a.instant < b.instant := by
  rw [instant_lt_iff ha hb]
  constructor
  · intro h
    by_contra hnot
    rcases Nat.lt_or_eq_of_le (Nat.le_of_not_lt hnot) with hlt | heq
    · exact lt_asymm h (column_lt_column hb ha hlt)
    · rw [eq_of_rank_eq hb.isReal ha.isReal (hb.zone.trans ha.zone.symm) heq] at h
      exact lt_irrefl _ h
  · exact column_lt_column ha hb

end ReviewQueue.Timestamp
