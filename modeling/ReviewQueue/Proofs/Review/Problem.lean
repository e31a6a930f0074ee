import ReviewQueue.Proofs.Text.Blank
import ReviewQueue.Review.Problem

/-!
# Updates with which nothing is wrong

`Problem.find` lists what is wrong with an update. `find_eq_nil_iff` says when the list is empty,
and `find_congr` that it looks at nothing of a submission but its id and the indexes of its parts.
-/

namespace ReviewQueue

/-- A verdict that may be given: a known one, and with a feedback that is not blank when it
rejects. -/
def Status.Justified (status : Status) (feedback : String) : Prop :=
  status ∈ Status.known ∧ (status = .rejected → Text.trimmed feedback ≠ "")

namespace Problem

theorem justified_iff (status : Status) (feedback : String) :
    status.Justified feedback ↔
      status.isKnown = true ∧ (status == .rejected && Text.isBlankText feedback) = false := by
  unfold Status.Justified Status.isKnown
  rw [List.contains_iff_mem, Bool.and_eq_false_iff, beq_eq_false_iff_ne]
  have hblank : Text.isBlankText feedback = false ↔ Text.trimmed feedback ≠ "" := by
    rw [← Bool.not_eq_true, Text.isBlankText_iff]
  rw [hblank]
  by_cases h : status = .rejected <;> simp [h]

theorem ofPart?_eq_none_iff (parts : List Part) (d : PartVerdict) :
    ofPart? parts d = none ↔
      (∃ p ∈ parts, p.index = d.index) ∧ d.status.Justified d.feedback := by
  rw [justified_iff]
  have hknown : (parts.any fun p => p.index == d.index) = true ↔
      ∃ p ∈ parts, p.index = d.index := by
    simp
  rw [← hknown]
  unfold ofPart?
  cases (parts.any fun p => p.index == d.index) <;> cases d.status.isKnown <;>
    cases (d.status == .rejected && Text.isBlankText d.feedback) <;> simp

theorem ofParts_eq_nil_iff (s : Submission) (v : Verdict) :
    ofParts s v = [] ↔
      v.hasParts = true ∧ ∀ d ∈ v.partList,
        (∃ p ∈ s.partList, p.index = d.index) ∧ d.status.Justified d.feedback := by
  unfold ofParts
  cases v.hasParts with
  | false => simp
  | true => simp [List.filterMap_eq_nil_iff, ofPart?_eq_none_iff]

theorem ofWhole_eq_nil_iff (s : Submission) (v : Verdict) :
    ofWhole s v = [] ↔ v.hasParts = false ∧ v.status.Justified v.feedback := by
  rw [justified_iff]
  unfold ofWhole
  cases v.hasParts with
  | true => simp
  | false =>
      cases v.status.isKnown <;>
        cases (v.status == .rejected && Text.isBlankText v.feedback) <;> simp

/-- When nothing is wrong with an update. -/
theorem find_eq_nil_iff (s : Submission) (v : Verdict) :
    find s v = [] ↔
      0 ≤ v.timeElapsed ∧
        if s.hasParts then
          v.hasParts = true ∧ ∀ d ∈ v.partList,
            (∃ p ∈ s.partList, p.index = d.index) ∧ d.status.Justified d.feedback
        else v.hasParts = false ∧ v.status.Justified v.feedback := by
  unfold find
  rw [List.append_eq_nil_iff]
  have htime : ((if v.timeElapsed < 0 then [negativeTime] else []) = []) ↔ 0 ≤ v.timeElapsed := by
    split <;> simp <;> omega
  rw [htime]
  cases s.hasParts with
  | false => simp [ofWhole_eq_nil_iff]
  | true => simp [ofParts_eq_nil_iff]

/-- Judging looks at the id of a submission and at the indexes of its parts. -/
theorem find_congr {s t : Submission} (hid : s.id = t.id)
    (hparts : s.partList.map Part.index = t.partList.map Part.index) (v : Verdict) :
    find s v = find t v := by
  have hhas : s.hasParts = t.hasParts := by
    have hlength := congrArg List.length hparts
    unfold Submission.hasParts
    simp only [List.length_map] at hlength
    cases hs : s.partList <;> cases ht : t.partList <;> simp_all
  have hpart : ofPart? s.partList = ofPart? t.partList := by
    funext d
    have hany : (s.partList.any fun p => p.index == d.index) =
        t.partList.any fun p => p.index == d.index := by
      have hmap := congrArg (List.any · (· == d.index)) hparts
      simpa [List.any_map, Function.comp_def] using hmap
    unfold ofPart?
    rw [hany]
  unfold find ofParts ofWhole
  rw [hhas, hid, hpart]

end Problem
end ReviewQueue
