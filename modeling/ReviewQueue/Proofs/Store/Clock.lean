import Mathlib.Data.String.Basic
import ReviewQueue.Proofs.Store.Sound
import ReviewQueue.Store.Timed

/-!
# Clocks that are ahead of a store

A clock is ahead of a store when its next readings can be kept, come in order and later than all
that was created, and its ids are new. The store compares times by their columns; for times in UTC
that is their order (`column_lt_column`), so that a clock in UTC is ahead when it is later
(`ahead_of_utc`).
-/

namespace ReviewQueue

/-! ## The order of columns -/

namespace Text

theorem lt_of_digitValue_lt {c d : Char} (hd : isDigit d = true)
    (h : digitValue c < digitValue d) : c < d := by
  simp only [isDigit, Bool.and_eq_true, decide_eq_true_eq] at hd
  rw [Char.lt_def, UInt32.lt_iff_toNat_lt]
  unfold digitValue at h
  simp only [Char.toNat] at *
  omega

theorem digitValue_inj {c d : Char} (hc : isDigit c = true) (hd : isDigit d = true)
    (h : digitValue c = digitValue d) : c = d := by
  simp only [isDigit, Bool.and_eq_true, decide_eq_true_eq] at hc hd
  unfold digitValue at h
  exact Char.toNat_inj.mp (by omega)

theorem blank_lt_digit {c : Char} (h : isDigit c = true) : ' ' < c := by
  simp only [isDigit, Bool.and_eq_true, decide_eq_true_eq] at h
  rw [Char.lt_def, UInt32.lt_iff_toNat_lt]
  simp only [Char.toNat] at h
  exact Nat.lt_of_lt_of_le (by decide) h.1

/-- Digits behind a point stand in the order of their values, when they are as many or a blank ends
the shorter ones. -/
theorem lt_of_decimals_lt {width : Nat} {s t x y : List Char} (hs : ∀ c ∈ s, isDigit c = true)
    (ht : ∀ c ∈ t, isDigit c = true) (hwidth : s.length ≤ width ∧ t.length ≤ width)
    (hends : s.length = t.length ∨ x.head? = some ' ')
    (hlt : digitsValue s * 10 ^ (width - s.length) < digitsValue t * 10 ^ (width - t.length)) :
    s ++ x < t ++ y := by
  induction s generalizing width t with
  | nil =>
      cases t with
      | nil => simp [digitsValue] at hlt
      | cons d t =>
          obtain ⟨rest, rfl⟩ : ∃ rest, x = ' ' :: rest := by
            rcases hends with hlength | hblank
            · cases hlength
            · exact ⟨x.tail, (List.cons_head?_tail hblank).symm⟩
          exact List.cons_lt_cons_iff.mpr (.inl (blank_lt_digit (ht d List.mem_cons_self)))
  | cons c s ih =>
      cases t with
      | nil => simp [digitsValue] at hlt
      | cons d t =>
          obtain ⟨width, rfl⟩ : ∃ n, width = n + 1 :=
            ⟨width - 1, by have := hwidth.1; rw [List.length_cons] at this; omega⟩
          obtain ⟨hc, hs⟩ := List.forall_mem_cons.mp hs
          obtain ⟨hd, ht⟩ := List.forall_mem_cons.mp ht
          simp only [List.length_cons, Nat.add_le_add_iff_right] at hwidth
          -- the first digits weigh more than all that follow
          have hscale (c : Char) (s : List Char) (hlength : s.length ≤ width) :
              digitsValue (c :: s) * 10 ^ (width + 1 - (c :: s).length) =
                digitValue c * 10 ^ width + digitsValue s * 10 ^ (width - s.length) := by
            rw [digitsValue_cons, List.length_cons, Nat.add_sub_add_right, Nat.add_mul,
              Nat.mul_assoc, ← Nat.pow_add, Nat.add_sub_cancel' hlength]
          have hsmall (s : List Char) (hs : ∀ c ∈ s, isDigit c = true)
              (hlength : s.length ≤ width) :
              digitsValue s * 10 ^ (width - s.length) < 10 ^ width := by
            calc digitsValue s * 10 ^ (width - s.length)
                < 10 ^ s.length * 10 ^ (width - s.length) :=
                  Nat.mul_lt_mul_of_pos_right (digitsValue_lt hs) (Nat.pow_pos (by decide))
              _ = 10 ^ width := by rw [← Nat.pow_add, Nat.add_sub_cancel' hlength]
          rw [hscale c s hwidth.1, hscale d t hwidth.2] at hlt
          rw [List.cons_append, List.cons_append, List.cons_lt_cons_iff]
          rcases Nat.lt_trichotomy (digitValue c) (digitValue d) with hless | heq | hmore
          · exact .inl (lt_of_digitValue_lt hd hless)
          · refine .inr ⟨digitValue_inj hc hd heq, ih hs ht hwidth ?_ ?_⟩
            · exact hends.imp (by simp) id
            · rw [heq] at hlt
              exact Nat.lt_of_add_lt_add_left hlt
          · have hweigh : (digitValue d + 1) * 10 ^ width ≤ digitValue c * 10 ^ width :=
              Nat.mul_le_mul_right _ hmore
            have := hsmall t ht hwidth.2
            rw [Nat.add_mul, Nat.one_mul] at hweigh
            omega

/-- Padded numbers stand in the order of their values, and equal ones leave it to what follows. -/
theorem padded_append_lt {width m n : Nat} (hwidth : 0 < width) (hm : m < 10 ^ width)
    (hn : n < 10 ^ width) {x y : List Char} (hle : m ≤ n) (hrest : m = n → x < y) :
    padded width m ++ x < padded width n ++ y := by
  rcases Nat.lt_or_eq_of_le hle with hlt | rfl
  · have hlength := length_padded hwidth hm
    have hlength' := length_padded hwidth hn
    have hwidth : (padded width m).length ≤ width ∧ (padded width n).length ≤ width :=
      ⟨hlength.le, hlength'.le⟩
    refine lt_of_decimals_lt (fun _ hc => isDigit_of_mem_padded hc)
      (fun _ hc => isDigit_of_mem_padded hc) hwidth (.inl (hlength.trans hlength'.symm)) ?_
    rw [hlength, hlength', digitsValue_padded, digitsValue_padded, Nat.sub_self, Nat.pow_zero,
      Nat.mul_one, Nat.mul_one]
    exact hlt
  · exact List.append_left_lt (hrest rfl)

end Text

namespace Timestamp

/-- Decimals of a second stand in their order when a blank follows. -/
theorem fractionText_append_lt {m n : Nat} (hm : m < 1000000000) (hn : n < 1000000000)
    (h : m < n) (x y : List Char) :
    fractionText m ++ ' ' :: x < fractionText n ++ ' ' :: y := by
  obtain ⟨s, hs, hswidth, hsvalue, hstext⟩ := exists_decimals hm
  obtain ⟨t, ht, htwidth, htvalue, httext⟩ := exists_decimals hn
  have hlt : s ++ ' ' :: x < t ++ ' ' :: y :=
    Text.lt_of_decimals_lt hs ht ⟨hswidth, htwidth⟩ (.inr rfl) (by rwa [hsvalue, htvalue])
  have hne : t ≠ [] := by
    rintro rfl
    rw [Text.digitsValue, List.foldl_nil, Nat.zero_mul] at htvalue
    omega
  rw [hstext, httext, if_neg hne]
  split
  · exact List.cons_lt_cons_iff.mpr (.inl (by decide))
  · exact List.cons_lt_cons_iff.mpr (.inr ⟨rfl, hlt⟩)

/-- A time in UTC, of the calendar and in one of the years 0 to 9999 (`IsReal`). -/
structure IsUtc (t : Timestamp) : Prop where
  isReal : t.IsReal
  zone : t.offset = 0

theorem IsUtc.isNear {t : Timestamp} (h : t.IsUtc) : t.IsNear := by
  show t.offset.natAbs < 1440
  rw [h.zone]
  decide

/-- A stored time in UTC is read back. -/
theorem IsUtc.isKept {t : Timestamp} (h : t.IsUtc) : t.IsKept :=
  ⟨h.isReal, by rw [h.zone]; decide⟩

/-- **Times in UTC are kept in their order**: the column of a later time is greater. -/
theorem column_lt_column {a b : Timestamp} (ha : a.IsUtc) (hb : b.IsUtc) (h : a.rank < b.rank) :
    a.column < b.column := by
  obtain ⟨⟨hyear, hmonth, hday, hhour, hminute, hsecond, hnanos⟩, hzone⟩ := ha
  obtain ⟨⟨hyear', hmonth', hday', hhour', hminute', hsecond', hnanos'⟩, hzone'⟩ := hb
  have hdays := daysIn_le a.year a.month
  have hdays' := daysIn_le b.year b.month
  unfold rank at h
  have hcons (c : Char) {x y : List Char} (hlt : x < y) : c :: x < c :: y :=
    List.cons_lt_cons_iff.mpr (.inr ⟨rfl, hlt⟩)
  have htwo {m n : Nat} (hm : m < 100) (hn : n < 100) {x y : List Char} (hle : m ≤ n)
      (hrest : m = n → x < y) : Text.padded 2 m ++ x < Text.padded 2 n ++ y :=
    Text.padded_append_lt (by decide) hm hn hle hrest
  rw [String.lt_iff_toList_lt, column, column, String.toList_ofList, String.toList_ofList]
  simp only [dateText, clockText, List.append_assoc, List.cons_append, hzone, hzone']
  -- the first field in which the times differ decides, as it does in their ranks
  refine Text.padded_append_lt (by decide) (by omega) (by omega) (by omega) fun hyears => hcons _ ?_
  refine htwo (by omega) (by omega) (by omega) fun hmonths => hcons _ ?_
  refine htwo (by omega) (by omega) (by omega) fun hdates => hcons _ ?_
  refine htwo (by omega) (by omega) (by omega) fun hhours => hcons _ ?_
  refine htwo (by omega) (by omega) (by omega) fun hminutes => hcons _ ?_
  refine htwo (by omega) (by omega) (by omega) fun hseconds => ?_
  exact fractionText_append_lt hnanos hnanos' (by omega) _ _

end Timestamp

/-! ## Readings that come -/

namespace Clock

/-- The clock after a number of readings. -/
def advance (c : Clock) (n : Nat) : Clock := { c with readings := c.readings + n }

@[simp] theorem advance_zero (c : Clock) : c.advance 0 = c := rfl

theorem tick_eq_advance (c : Clock) : c.tick = c.advance 1 := rfl

@[simp] theorem advance_advance (c : Clock) (m n : Nat) :
    (c.advance m).advance n = c.advance (m + n) := by
  simp [advance, Nat.add_assoc]

/-- The times of the next `n` readings can be read back from their columns, ascend, and are later
than any creation in a store. Times are compared as the store compares them, by their columns. -/
structure Ahead (c : Clock) (n : Nat) (store : Store) : Prop where
  kept : ∀ k < n, (c.advance k).now.IsKept
  ascending : ∀ j k, j < k → k < n → (c.advance j).now.column < (c.advance k).now.column
  later : ∀ k < n, ∀ r ∈ store.submissions, r.createdAt < (c.advance k).now.column

/-- The ids of the next `n` readings differ, and no attachment of a store has one of them. -/
structure NewIds (c : Clock) (n : Nat) (store : Store) : Prop where
  distinct : ∀ j k, j < k → k < n → (c.advance j).fresh ≠ (c.advance k).fresh
  unused : ∀ k < n, ∀ a ∈ store.attachments, a.id ≠ (c.advance k).fresh

variable {c : Clock} {m n : Nat} {store after : Store}

theorem Ahead.mono (h : c.Ahead n store) (hle : m ≤ n) : c.Ahead m store where
  kept k hk := h.kept k (by omega)
  ascending j k hjk hk := h.ascending j k hjk (by omega)
  later k hk := h.later k (by omega)

/-- A clock stays ahead when the submissions that come take their times from earlier readings. -/
theorem Ahead.advance (h : c.Ahead (m + n) store)
    (hafter : ∀ r ∈ after.submissions,
      r ∈ store.submissions ∨ ∃ k < m, r.createdAt = (c.advance k).now.column) :
    (c.advance m).Ahead n after where
  kept k hk := by
    rw [advance_advance]
    exact h.kept (m + k) (by omega)
  ascending j k hjk hk := by
    simp only [advance_advance]
    exact h.ascending (m + j) (m + k) (by omega) (by omega)
  later k hk r hr := by
    rw [advance_advance]
    rcases hafter r hr with hold | ⟨j, hj, hcreated⟩
    · exact h.later (m + k) (by omega) r hold
    · rw [hcreated]
      exact h.ascending j (m + k) (by omega) (by omega)

theorem NewIds.mono (h : c.NewIds n store) (hle : m ≤ n) : c.NewIds m store where
  distinct j k hjk hk := h.distinct j k hjk (by omega)
  unused k hk := h.unused k (by omega)

/-- Ids stay new when the attachments that come take theirs from earlier readings. -/
theorem NewIds.advance (h : c.NewIds (m + n) store)
    (hafter : ∀ a ∈ after.attachments,
      a ∈ store.attachments ∨ ∃ k < m, a.id = (c.advance k).fresh) :
    (c.advance m).NewIds n after where
  distinct j k hjk hk := by
    simp only [advance_advance]
    exact h.distinct (m + j) (m + k) (by omega) (by omega)
  unused k hk a ha := by
    rw [advance_advance]
    rcases hafter a ha with hold | ⟨j, hj, hid⟩
    · exact h.unused (m + k) (by omega) a hold
    · rw [hid]
      exact h.distinct j (m + k) (by omega) (by omega)

/-- **A clock in UTC is ahead of a store** whose times are in UTC when its readings come in order
and are later. -/
theorem ahead_of_utc (hutc : ∀ k < n, (c.advance k).now.IsUtc)
    (hascending : ∀ j k, j < k → k < n → (c.advance j).now.rank < (c.advance k).now.rank)
    (hlater : ∀ r ∈ store.submissions, ∃ t : Timestamp, r.createdAt = t.column ∧ t.IsUtc ∧
      ∀ k < n, t.rank < (c.advance k).now.rank) : c.Ahead n store where
  kept k hk := (hutc k hk).isKept
  ascending j k hjk hk :=
    Timestamp.column_lt_column (hutc j (by omega)) (hutc k hk) (hascending j k hjk hk)
  later k hk r hr := by
    obtain ⟨t, hcreated, ht, hrank⟩ := hlater r hr
    rw [hcreated]
    exact Timestamp.column_lt_column ht (hutc k hk) (hrank k hk)

end Clock
end ReviewQueue
