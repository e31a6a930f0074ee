import ReviewQueue.Proofs.Review.Session

/-!
# Approvals

Calls that approve a submission and all of its parts. The form that they leave is let through by the
gate, and nothing is wrong with its update unless the time that was spent is negative. So a
submission that can be loaded can always be reviewed.

* `Session.approved_of_edits` — parts are approved one by one;
* `Session.approval_ready` — the form after an approval.
-/

namespace ReviewQueue

namespace Form

/-- A form with final verdicts only. -/
def Decides (form : Form) : Mode → Prop
  | .single => form.status = .approved ∨ form.status = .rejected
  | .parts => ∀ st ∈ form.partsStatus, st = .approved ∨ st = .rejected

theorem partsReady_of_approved {statuses : List Status} (feedbacks : List String)
    (h : ∀ st ∈ statuses, st = .approved) : partsReady statuses feedbacks = true := by
  induction statuses generalizing feedbacks with
  | nil => rfl
  | cons status statuses ih =>
      obtain ⟨rfl, hrest⟩ := List.forall_mem_cons.mp h
      rw [partsReady, ih feedbacks.tail hrest]
      rfl

theorem blankRejections_of_approved {form : Form} (h : ∀ st ∈ form.partsStatus, st = .approved)
    (s : Submission) : form.blankRejections s = [] := by
  have hnone : (s.partList.zip (form.partsStatus.zip form.partsFeedback)).filter (fun row =>
      decide (row.2.1.RejectsInBlank row.2.2)) = [] := by
    -- every part is approved, and only a rejection can be in blank
    rw [List.filter_eq_nil_iff]
    rintro ⟨p, status, feedback⟩ hrow
    have hstatus := h status (List.of_mem_zip (List.of_mem_zip hrow).2).1
    simp only [decide_eq_true_eq, hstatus]
    rintro ⟨heq, -⟩
    exact absurd heq (by decide)
  rw [blankRejections, hnone]
  rfl

end Form

namespace Session

/-- The call that approves a part. -/
def approvePart (position : Nat) : Edit := .part position .approved ""

/-- The calls that approve everything. -/
def approval (s : Session) : List Edit :=
  .status .approved :: .feedback "ok" ::
    (List.range s.form.partsStatus.length).map approvePart

section Parts

variable {s : Session} (hmode : s.mode = .parts)

include hmode

theorem partsStatus_approvePart {i : Nat} (hi : i < s.form.partsStatus.length) :
    (s.edit (approvePart i)).form.partsStatus = s.form.partsStatus.set i .approved := by
  have hposition : s.mode = .parts ∧ (0 : Int) ≤ i ∧ (i : Int) < s.form.partsStatus.length :=
    ⟨hmode, by omega, by omega⟩
  simp only [approvePart, edit, setPart, if_pos hposition]
  rfl

/-- Approving parts one by one leaves those approved that were approved before. -/
theorem approved_of_edits (positions : List Nat)
    (hpositions : ∀ i ∈ positions, i < s.form.partsStatus.length) {j : Nat}
    (hj : j ∈ positions ∨ s.form.partsStatus[j]? = some .approved) :
    (s.edited (positions.map approvePart)).form.partsStatus[j]? = some .approved := by
  induction positions generalizing s with
  | nil => exact hj.resolve_left List.not_mem_nil
  | cons i positions ih =>
      obtain ⟨hi, hrest⟩ := List.forall_mem_cons.mp hpositions
      have hset := partsStatus_approvePart hmode hi
      obtain ⟨form, hedit, -⟩ := edit_frame s (approvePart i)
      have hmode' : (s.edit (approvePart i)).mode = .parts := by rw [hedit]; exact hmode
      rw [List.map_cons, edited, List.foldl_cons]
      refine ih hmode' (fun k hk => ?_) ?_
      · rw [hset, List.length_set]
        exact hrest k hk
      · -- the part is approved here, or stays as it was
        rw [hset]
        by_cases hij : i = j
        · subst hij
          exact .inr (by simp [hi])
        · rcases hj with hj | hj
          · exact .inl ((List.mem_cons.mp hj).resolve_left (Ne.symm hij))
          · exact .inr (by rw [List.getElem?_set_ne hij]; exact hj)

theorem approved_of_approval : ∀ st ∈ (s.edited s.approval).form.partsStatus, st = .approved := by
  let t := (s.setStatus .approved).setFeedback "ok"
  have hedited : s.edited s.approval =
      t.edited ((List.range s.form.partsStatus.length).map approvePart) := rfl
  intro st hst
  obtain ⟨j, hj⟩ := List.mem_iff_getElem?.mp hst
  obtain ⟨form, hframe, hlength, -⟩ := edited_frame s s.approval
  have hbound : j < s.form.partsStatus.length := by
    have hlt := (List.getElem?_eq_some_iff.mp hj).1
    rw [hframe] at hlt
    exact hlength ▸ hlt
  have happroved := approved_of_edits (s := t) hmode (List.range s.form.partsStatus.length)
    (fun i hi => List.mem_range.mp hi) (.inl (List.mem_range.mpr hbound))
  rw [← hedited, hj] at happroved
  exact Option.some.inj happroved

end Parts

/-- After an approval the gate is open, and nothing is wrong with the update of a submission whose
time is not negative. -/
theorem approval_ready {s : Session} {old : Submission} (hmode : s.mode = Mode.of old)
    (hform : s.form = Form.ofSubmission old) (htime : 0 ≤ old.timeElapsed) :
    let form := (s.edited s.approval).form
    form.Decides s.mode ∧ form.canSubmit s.mode false false = true ∧
      Problem.find old (form.verdict s.mode old) = [] := by
  intro form
  cases hparts : old.hasParts with
  | false =>
      have hsingle : s.mode = .single := by rw [hmode, Mode.of, hparts]; rfl
      have hnone : s.form.partsStatus = [] := by
        rw [hform, Form.ofSubmission, ← hmode, hsingle]
      have hvalue : form.status = .approved ∧ form.feedback = "ok" := by
        -- without parts there is the verdict on the whole alone
        have hedits : s.approval = [.status .approved, .feedback "ok"] := by
          rw [approval, hnone]
          rfl
        show (s.edited s.approval).form.status = _ ∧ (s.edited s.approval).form.feedback = _
        rw [hedits]
        exact ⟨rfl, rfl⟩
      rw [hsingle]
      refine ⟨.inl hvalue.1, ?_, ?_⟩
      · simp only [Form.canSubmit, hvalue]
        decide
      · refine (Form.find_verdict_single hparts (by rw [hvalue.2]; decide)).mpr ⟨htime, ?_⟩
        rw [hvalue.1, hvalue.2]
        decide
  | true =>
      have hmany : s.mode = .parts := by rw [hmode, Mode.of, hparts]; rfl
      have hall : ∀ st ∈ form.partsStatus, st = .approved := approved_of_approval hmany
      have hready := Form.partsReady_of_approved form.partsFeedback hall
      obtain ⟨hstatuses, hfeedbacks⟩ : form.partsStatus.length = old.partList.length ∧
          form.partsFeedback.length = old.partList.length := by
        obtain ⟨edited, hframe, hstatuses, hfeedbacks⟩ := edited_frame s s.approval
        -- the edits leave the form as long as the submission that it was made for
        have haligned := aligned_ofSubmission old (hmode ▸ hmany)
        rw [← hform] at haligned
        show (s.edited s.approval).form.partsStatus.length = _ ∧
          (s.edited s.approval).form.partsFeedback.length = _
        rw [hframe]
        exact ⟨hstatuses.trans haligned.1, hfeedbacks.trans haligned.2⟩
      have hne : form.partsStatus.isEmpty = false := by
        rw [List.isEmpty_eq_false_iff, ← List.length_pos_iff, hstatuses, List.length_pos_iff]
        simpa [Submission.hasParts] using hparts
      rw [hmany]
      refine ⟨fun st hst => .inl (hall st hst), ?_, ?_⟩
      · simp [Form.canSubmit, hready, hne]
      · rw [Form.find_verdict_parts hparts hstatuses hfeedbacks hready,
          Form.blankRejections_of_approved hall, if_neg (by omega)]
        rfl

end Session
end ReviewQueue
