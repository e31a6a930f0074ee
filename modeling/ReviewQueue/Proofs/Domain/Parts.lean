import Mathlib.Data.List.Nodup
import ReviewQueue.Domain.Submission

/-!
# Parts in the order of their indexes

Parts are sorted wherever they are read, so that the order in which they arrive does not count.

* `ascending_sort` — parts of distinct indexes are sorted strictly;
* `sort_eq_of_perm` — and then every arrangement of them is sorted to the same list.
-/

namespace ReviewQueue.Part

theorem perm_sort (parts : List Part) : (sort parts).Perm parts :=
  List.mergeSort_perm _ _

theorem sorted_sort (parts : List Part) :
    (sort parts).Pairwise fun a b => a.index ≤ b.index := by
  have hsorted := @List.pairwise_mergeSort Part (fun a b => decide (a.index ≤ b.index))
    (fun a b c hab hbc => by simp only [decide_eq_true_eq] at *; omega)
    (fun a b => by simp only [Bool.or_eq_true, decide_eq_true_eq]; omega) parts
  exact hsorted.imp of_decide_eq_true

theorem sort_of_sorted {parts : List Part} (h : parts.Pairwise fun a b => a.index ≤ b.index) :
    sort parts = parts :=
  List.mergeSort_of_pairwise (h.imp decide_eq_true)

theorem ascending_sort {parts : List Part} (h : (parts.map index).Nodup) :
    (sort parts).Pairwise fun a b => a.index < b.index := by
  have hnodup : ((sort parts).map index).Nodup := ((perm_sort parts).map index).nodup_iff.mpr h
  refine ((sorted_sort parts).and (List.pairwise_map.mp hnodup)).imp ?_
  rintro a b ⟨hle, hne⟩
  omega

/-- Ascending parts stand in the one order that they can have. -/
theorem eq_of_ascending {a b : List Part} (ha : a.Pairwise fun p q => p.index < q.index)
    (hb : b.Pairwise fun p q => p.index < q.index) (h : a.Perm b) : a = b := by
  refine List.Perm.eq_of_pairwise (fun p q _ _ hpq hqp => ?_) ha hb h
  omega

/-- **The order in which parts of distinct indexes arrive does not count.** -/
theorem sort_eq_of_perm {a b : List Part} (h : a.Perm b) (hdistinct : (a.map index).Nodup) :
    sort a = sort b := by
  have hdistinct' : (b.map index).Nodup := (h.map index).nodup_iff.mp hdistinct
  exact eq_of_ascending (ascending_sort hdistinct) (ascending_sort hdistinct')
    ((perm_sort a).trans (h.trans (perm_sort b).symm))

end ReviewQueue.Part
