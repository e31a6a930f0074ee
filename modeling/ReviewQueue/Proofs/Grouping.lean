import Mathlib.Data.List.Basic

/-!
# Lists without repetitions, and sorted lists as groups

A list that is sorted by the rank of a key consists of one group of items for each key, and inside a
group the items keep the order that they had.

* `List.pairwise_idxOf_eraseDups`, `List.nodup_eraseDups`, `List.eraseDups_of_nodup` — a list
  without its repetitions;
* `List.filter_mergeSort_of_tied` — sorting leaves items of one rank in their order;
* `List.eq_flatMap_filter_of_sorted` — a sorted list is its groups, one after the other.
-/

namespace List

variable {α β : Type} [BEq α] [LawfulBEq α]

/-! ## Repetitions -/

/-- Of two items that a filter keeps, the one that comes first in what is left comes first. -/
theorem idxOf_lt_of_filter {p : α → Bool} {items : List α} {a b : α} (ha : p a = true)
    (hb : p b = true) (h : (items.filter p).idxOf a < (items.filter p).idxOf b) :
    items.idxOf a < items.idxOf b := by
  induction items with
  | nil => exact h
  | cons c items ih =>
      rw [idxOf_cons, idxOf_cons]
      by_cases hc : p c = true
      · rw [filter_cons_of_pos hc, idxOf_cons, idxOf_cons] at h
        cases hca : c == a <;> cases hcb : c == b <;> simp_all
      · have hca : (c == a) = false := beq_false_of_ne fun heq => hc (heq ▸ ha)
        have hcb : (c == b) = false := beq_false_of_ne fun heq => hc (heq ▸ hb)
        rw [filter_cons_of_neg hc] at h
        simpa [hca, hcb] using ih h

/-- What is left without repetitions is in the order of the first occurrences. -/
theorem pairwise_idxOf_eraseDups (items : List α) :
    items.eraseDups.Pairwise fun a b => items.idxOf a < items.idxOf b := by
  induction hlength : items.length using Nat.strongRecOn generalizing items with
  | ind n ih =>
      cases items with
      | nil => exact .nil
      | cons c rest =>
          have hshorter : (rest.filter (!· == c)).length < n := by
            have := length_filter_le (!· == c) rest
            rw [length_cons] at hlength
            omega
          have hkept : ∀ b ∈ (rest.filter (!· == c)).eraseDups, (!b == c) = true := fun b hb =>
            (mem_filter.mp (mem_eraseDups.mp hb)).2
          have hskip {b : α} (hb : (!b == c) = true) : (c :: rest).idxOf b = rest.idxOf b + 1 := by
            rw [idxOf_cons, beq_false_of_ne (Ne.symm (by simpa using hb))]
            rfl
          rw [eraseDups_cons]
          refine pairwise_cons.mpr ⟨fun b hb => ?_, ?_⟩
          · rw [hskip (hkept b hb), idxOf_cons_self]
            exact Nat.succ_pos _
          · refine (ih _ hshorter _ rfl).imp_of_mem fun {a b} ha hb hab => ?_
            rw [hskip (hkept a ha), hskip (hkept b hb)]
            exact Nat.succ_lt_succ (idxOf_lt_of_filter (hkept a ha) (hkept b hb) hab)

theorem nodup_eraseDups (items : List α) : items.eraseDups.Nodup :=
  (pairwise_idxOf_eraseDups items).imp fun {a b} hlt (heq : a = b) => by
    rw [heq] at hlt
    exact Nat.lt_irrefl _ hlt

theorem eraseDups_of_nodup {items : List α} (h : items.Nodup) : items.eraseDups = items := by
  induction items with
  | nil => rfl
  | cons a rest ih =>
      obtain ⟨hnot, hrest⟩ := nodup_cons.mp h
      have hkeep : rest.filter (!· == a) = rest := by
        rw [filter_eq_self]
        intro b hb
        have hne : b ≠ a := fun heq => hnot (heq ▸ hb)
        simpa using hne
      rw [eraseDups_cons, hkeep, ih hrest]

/-! ## Groups -/

omit [BEq α] [LawfulBEq α] in
/-- Sorting leaves the items of one rank in their order. -/
theorem filter_mergeSort_of_tied (items : List α) (rank : α → Nat) {p : α → Bool}
    (htied : ∀ a b, p a = true → p b = true → rank a = rank b) :
    (items.mergeSort fun a b => decide (rank a ≤ rank b)).filter p = items.filter p := by
  have hpairwise : (items.filter p).Pairwise fun a b => decide (rank a ≤ rank b) = true := by
    refine pairwise_of_forall_mem_list fun a ha b hb => ?_
    rw [htied a b (mem_filter.mp ha).2 (mem_filter.mp hb).2]
    exact decide_eq_true (Nat.le_refl _)
  have hsublist : items.filter p <+ items.mergeSort fun a b => decide (rank a ≤ rank b) := by
    refine sublist_mergeSort ?_ ?_ hpairwise filter_sublist
    · intro a b c hab hbc
      simp only [decide_eq_true_eq] at *
      omega
    · intro a b
      simp only [Bool.or_eq_true, decide_eq_true_eq]
      omega
  have hfiltered := hsublist.filter p
  simp only [filter_filter, Bool.and_self] at hfiltered
  exact (hfiltered.eq_of_length ((mergeSort_perm _ _).filter p).length_eq.symm).symm

omit [BEq α] [LawfulBEq α] in
/-- Where `p` holds of all items before one that it holds of, the items with `p` come first. -/
theorem eq_filter_append_of_pairwise {p : α → Bool} {items : List α}
    (h : items.Pairwise fun a b => p b = true → p a = true) :
    items = items.filter p ++ items.filter fun b => !p b := by
  induction items with
  | nil => rfl
  | cons a items ih =>
      obtain ⟨hfirst, hrest⟩ := pairwise_cons.mp h
      cases hp : p a with
      | true =>
          rw [filter_cons_of_pos hp, filter_cons_of_neg (by simp [hp]), cons_append, ← ih hrest]
      | false =>
          have hnone : ∀ b ∈ items, p b = false := fun b hb => by
            by_contra hpb
            rw [hfirst b hb (by simpa using hpb)] at hp
            cases hp
          rw [filter_eq_nil_iff.mpr (by simpa [hp] using hnone), nil_append,
            filter_eq_self.mpr (by simpa [hp] using hnone)]

/-- A list that is sorted by the rank of its keys consists of the groups of the keys. -/
theorem eq_flatMap_filter_of_sorted {key : β → α} {rank : α → Nat} {keys : List α} {items : List β}
    (hkeys : keys.Pairwise fun a b => rank a < rank b)
    (hsorted : items.Pairwise fun a b => rank (key a) ≤ rank (key b))
    (hmem : ∀ b ∈ items, key b ∈ keys) :
    items = keys.flatMap fun k => items.filter (key · == k) := by
  induction keys generalizing items with
  | nil =>
      cases items with
      | nil => rfl
      | cons b items => cases hmem b mem_cons_self
  | cons k keys ih =>
      obtain ⟨hfirst, hrest⟩ := pairwise_cons.mp hkeys
      -- nothing of another key stands before an item of the first one
      have hsplit : items = items.filter (key · == k) ++ items.filter fun b => !(key b == k) := by
        refine eq_filter_append_of_pairwise (Pairwise.imp_of_mem ?_ hsorted)
        intro a b ha _ hle hb
        have hlater := (mem_cons.mp (hmem a ha)).imp id (hfirst (key a))
        rw [beq_iff_eq.mp hb] at hle
        exact beq_iff_eq.mpr (hlater.resolve_right (by omega))
      have hothers : ∀ b ∈ items.filter (fun b => !(key b == k)), key b ∈ keys := by
        intro b hb
        obtain ⟨hb, hne⟩ := mem_filter.mp hb
        exact (mem_cons.mp (hmem b hb)).resolve_left (by simpa using hne)
      have hgroups := ih hrest (hsorted.filter _) hothers
      rw [flatMap_cons]
      conv_lhs => rw [hsplit, hgroups]
      refine congrArg _ (flatMap_congr fun other hother => ?_)
      rw [filter_filter]
      refine filter_congr fun b _ => ?_
      have hne : other ≠ k := fun heq => absurd (hfirst other hother) (by rw [heq]; omega)
      by_cases hkey : key b = other <;> simp [hkey, hne]

end List
