import Mathlib.Data.List.TakeWhile
import ReviewQueue.Text.Blank

/-!
# Blank texts

A text is blank exactly when nothing of it is left between its blanks at both ends.

* `trim_eq_nil_iff`, `isBlankText_iff` — texts of which nothing is left;
* `trim_blank_append`, `trim_append_blank` — blanks around a text are dropped with its own;
* `trim_of_ends` — a text without blanks at its ends stays as it is.
-/

namespace ReviewQueue.Text

theorem trimEnd_eq_nil_iff (s : List Char) : trimEnd s = [] ↔ s.all isBlank = true := by
  unfold trimEnd
  rw [List.reverse_eq_nil_iff, List.dropWhile_eq_nil_iff, List.all_eq_true]
  simp

theorem trim_eq_nil_iff (s : List Char) : trim s = [] ↔ s.all isBlank = true := by
  unfold trim
  rw [trimEnd_eq_nil_iff]
  constructor
  · intro h
    rw [← List.takeWhile_append_dropWhile (p := isBlank) (l := s), List.all_append, h,
      Bool.and_true]
    exact List.all_takeWhile
  · intro h
    rw [List.all_eq_true] at h ⊢
    intro c hc
    exact h c (List.dropWhile_sublist isBlank |>.subset hc)

/-- Blank and trimmed to nothing are the same. -/
theorem isBlankText_iff (s : String) : isBlankText s = true ↔ trimmed s = "" := by
  unfold isBlankText trimmed
  rw [← trim_eq_nil_iff, ← String.toList_inj]
  simp

/-! ## What is left -/

variable {s t : List Char}

theorem trim_blank_append (ht : t.all isBlank = true) (s : List Char) :
    trim (t ++ s) = trim s := by
  unfold trim
  rw [List.dropWhile_append_of_pos (List.all_eq_true.mp ht)]

theorem trimEnd_append_blank (s : List Char) (ht : t.all isBlank = true) :
    trimEnd (s ++ t) = trimEnd s := by
  unfold trimEnd
  rw [List.reverse_append, List.dropWhile_append_of_pos]
  intro c hc
  exact List.all_eq_true.mp ht c (List.mem_reverse.mp hc)

theorem trim_append_blank (s : List Char) (ht : t.all isBlank = true) :
    trim (s ++ t) = trim s := by
  by_cases hs : s.all isBlank = true
  · have hboth : (s ++ t).all isBlank = true := by rw [List.all_append, hs, ht, Bool.and_self]
    rw [(trim_eq_nil_iff _).mpr hboth, (trim_eq_nil_iff _).mpr hs]
  · have hrest : ¬ (s.dropWhile isBlank).isEmpty = true := by
      rw [List.isEmpty_iff, List.dropWhile_eq_nil_iff]
      exact fun hall => hs (List.all_eq_true.mpr hall)
    unfold trim
    rw [List.dropWhile_append, if_neg hrest, trimEnd_append_blank _ ht]

/-- A text without blanks at its ends stays as it is. -/
theorem trim_of_ends (hfirst : ∀ c ∈ s.head?, isBlank c = false)
    (hlast : ∀ c ∈ s.getLast?, isBlank c = false) : trim s = s := by
  have hdrop (l : List Char) (hl : ∀ c ∈ l.head?, isBlank c = false) :
      l.dropWhile isBlank = l := by
    cases l with
    | nil => rfl
    | cons c l => exact List.dropWhile_cons_of_neg (by simp [hl c rfl])
  unfold trim trimEnd
  rw [hdrop s hfirst, hdrop s.reverse (by rwa [List.head?_reverse]), List.reverse_reverse]

end ReviewQueue.Text
