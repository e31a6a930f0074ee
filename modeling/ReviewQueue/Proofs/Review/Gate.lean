import ReviewQueue.Proofs.Review.Problem
import ReviewQueue.Review.Gate

/-!
# The gate and the judgement

A form is let through by the gate before it is sent, and the update that it makes is judged when it
arrives. The two sets of rules were written apart: the gate goes by positions in the form, the
judgement by the indexes of parts. `gate_agrees_with_judgement` says how far they agree. What the
gate lets through can only be refused for a negative time, for a rejection with a feedback of
blanks, and, where there are no parts, for a verdict that is not known.
-/

namespace ReviewQueue

/-- A rejection with a feedback that is there but says nothing. -/
def Status.RejectsInBlank (status : Status) (feedback : String) : Prop :=
  status = .rejected ∧ feedback ≠ "" ∧ Text.trimmed feedback = ""

instance (status : Status) (feedback : String) : Decidable (status.RejectsInBlank feedback) :=
  inferInstanceAs (Decidable (_ ∧ _ ∧ _))

/-- A feedback that is there says nothing exactly when it is judged to be missing. -/
theorem Status.rejectsInBlank_iff (status : Status) {feedback : String} (h : feedback ≠ "") :
    status.RejectsInBlank feedback ↔
      (status == .rejected && Text.isBlankText feedback) = true := by
  unfold Status.RejectsInBlank
  rw [Bool.and_eq_true, beq_iff_eq, Text.isBlankText_iff]
  simp [h]

namespace Form

/-- In parts mode a form has a verdict and a feedback for every part. -/
def Aligned (form : Form) (s : Submission) : Prop :=
  Mode.of s = .parts →
    form.partsStatus.length = s.partList.length ∧ form.partsFeedback.length = s.partList.length

/-- The parts that a form rejects with a feedback of blanks, in order. -/
def blankRejections (form : Form) (s : Submission) : List Part :=
  ((s.partList.zip (form.partsStatus.zip form.partsFeedback)).filter fun row =>
    decide (row.2.1.RejectsInBlank row.2.2)).map Prod.fst

/-! ## One part -/

/-- A verdict on a part that the gate lets through. -/
def PartReady (status : Status) (feedback : String) : Prop :=
  status = .approved ∨ status = .rejected ∧ feedback ≠ ""

theorem partsReady_cons_iff (status : Status) (statuses : List Status) (feedback : String)
    (feedbacks : List String) :
    partsReady (status :: statuses) (feedback :: feedbacks) = true ↔
      PartReady status feedback ∧ partsReady statuses feedbacks = true := by
  simp [partsReady, PartReady]

theorem ofPart?_of_ready {parts : List Part} {p : Part} (hp : p ∈ parts) (id : Int)
    {status : Status} {feedback : String} (h : PartReady status feedback) :
    Problem.ofPart? parts ⟨id, p.index, status, feedback⟩ =
      if status.RejectsInBlank feedback then
        some (.partFeedbackMissing (Problem.partNumber p.index))
      else none := by
  have hknown : (parts.any fun q => q.index == p.index) = true :=
    List.any_eq_true.mpr ⟨p, hp, by simp⟩
  unfold Problem.ofPart?
  simp only [hknown, Bool.not_true, Bool.false_eq_true, if_false]
  rcases h with rfl | ⟨rfl, hthere⟩
  · -- an approval is known and asks for no feedback
    have happroved : ¬ Status.approved.RejectsInBlank feedback := by
      rintro ⟨heq, -⟩
      exact absurd heq (by decide)
    have hisKnown : Status.approved.isKnown = true := by decide
    have hnot : (Status.approved == Status.rejected) = false := by decide
    simp [happroved, hisKnown, hnot]
  · -- a rejection has a feedback, and the judgement only asks whether that is blank
    have hisKnown : Status.rejected.isKnown = true := by decide
    simp only [hisKnown, Bool.not_true, Bool.false_eq_true, if_false,
      Status.rejectsInBlank_iff Status.rejected hthere]

/-! ## All parts -/

/-- The form and the parts run in step, so the induction is over the three lists at once. -/
theorem partVerdicts_problems (known : List Part) (id : Int) {parts : List Part}
    {statuses : List Status} {feedbacks : List String} (hparts : ∀ p ∈ parts, p ∈ known)
    (hstatuses : statuses.length = parts.length) (hfeedbacks : feedbacks.length = parts.length)
    (hready : partsReady statuses feedbacks = true) :
    (partVerdicts id parts statuses feedbacks).filterMap (Problem.ofPart? known) =
      (((parts.zip (statuses.zip feedbacks)).filter fun row =>
        decide (row.2.1.RejectsInBlank row.2.2)).map Prod.fst).map fun p =>
          .partFeedbackMissing (Problem.partNumber p.index) := by
  induction parts generalizing statuses feedbacks with
  | nil => simp [partVerdicts]
  | cons p parts ih =>
      obtain ⟨status, statuses, rfl⟩ := List.exists_cons_of_length_eq_add_one hstatuses
      obtain ⟨feedback, feedbacks, rfl⟩ := List.exists_cons_of_length_eq_add_one hfeedbacks
      obtain ⟨hpart, hrest⟩ := (partsReady_cons_iff status statuses feedback feedbacks).mp hready
      have htail := ih (fun q hq => hparts q (List.mem_cons_of_mem p hq))
        (by simpa using hstatuses) (by simpa using hfeedbacks) hrest
      have hhead := ofPart?_of_ready (hparts p List.mem_cons_self) id hpart
      simp only [partVerdicts, List.head?_cons, Option.getD_some, List.tail_cons,
        List.filterMap_cons, List.zip_cons_cons, List.filter_cons, hhead, htail]
      by_cases hblank : status.RejectsInBlank feedback
      · simp [hblank]
      · simp [hblank]

theorem find_verdict_parts {form : Form} {s : Submission} (hparts : s.hasParts = true)
    (hstatuses : form.partsStatus.length = s.partList.length)
    (hfeedbacks : form.partsFeedback.length = s.partList.length)
    (hready : partsReady form.partsStatus form.partsFeedback = true) :
    Problem.find s (form.verdict .parts s) =
      (if s.timeElapsed < 0 then [.negativeTime] else []) ++
        (form.blankRejections s).map fun p =>
          .partFeedbackMissing (Problem.partNumber p.index) := by
  have hverdict : (form.verdict .parts s).hasParts = true := by
    cases hlist : s.partList with
    | nil => simp [Submission.hasParts, hlist] at hparts
    | cons p rest => simp [verdict, Verdict.hasParts, Verdict.partList, hlist, partVerdicts]
  unfold Problem.find Problem.ofParts
  rw [if_pos hparts, if_pos hverdict]
  congr 1
  exact partVerdicts_problems s.partList s.id (fun _ hp => hp) hstatuses hfeedbacks hready

theorem find_verdict_single {form : Form} {s : Submission} (hparts : s.hasParts = false)
    (hfeedback : form.feedback ≠ "") :
    Problem.find s (form.verdict .single s) = [] ↔
      0 ≤ s.timeElapsed ∧ form.status ∈ Status.known ∧
        ¬ form.status.RejectsInBlank form.feedback := by
  rw [Problem.find_eq_nil_iff, if_neg (by simp [hparts])]
  have hnone : (form.verdict .single s).hasParts = false := rfl
  have hwhole : form.status.Justified form.feedback ↔
      form.status ∈ Status.known ∧ ¬ form.status.RejectsInBlank form.feedback := by
    simp [Status.Justified, Status.RejectsInBlank, hfeedback]
  show 0 ≤ s.timeElapsed ∧ _ = false ∧ form.status.Justified form.feedback ↔ _
  rw [hwhole, hnone]
  simp

end Form

/-- **The gate and the judgement agree up to blanks.** Let the gate let a form through that has
entries for all parts. Part by part, the update is refused for a negative time and for each
rejection with a feedback of blanks, once each and in order, and for nothing else. As a whole, it
is accepted when the time is not negative, the verdict is known, and it is no such rejection. -/
theorem gate_agrees_with_judgement (s : Submission) (form : Form) (haligned : form.Aligned s)
    (hgate : form.canSubmit (Mode.of s) false false = true) :
    match Mode.of s with
    | .parts =>
      Problem.find s (form.verdict (Mode.of s) s) =
        (if s.timeElapsed < 0 then [.negativeTime] else []) ++
          (form.blankRejections s).map fun p =>
            .partFeedbackMissing (Problem.partNumber p.index)
    | .single =>
      Problem.find s (form.verdict (Mode.of s) s) = [] ↔
        0 ≤ s.timeElapsed ∧ form.status ∈ Status.known ∧
          ¬ form.status.RejectsInBlank form.feedback := by
  unfold Form.Aligned at haligned
  cases hparts : s.hasParts with
  | true =>
      have hmode : Mode.of s = .parts := by simp [Mode.of, hparts]
      obtain ⟨hstatuses, hfeedbacks⟩ := haligned hmode
      rw [hmode] at hgate ⊢
      have hready : Form.partsReady form.partsStatus form.partsFeedback = true := by
        simp only [Form.canSubmit, Bool.or_self, Bool.false_eq_true, if_false, Bool.and_eq_true]
          at hgate
        exact hgate.2
      exact Form.find_verdict_parts hparts hstatuses hfeedbacks hready
  | false =>
      have hmode : Mode.of s = .single := by simp [Mode.of, hparts]
      rw [hmode] at hgate ⊢
      have hfeedback : form.feedback ≠ "" := by
        simp only [Form.canSubmit, Bool.or_self, Bool.false_eq_true, if_false, Bool.and_eq_true,
          bne_iff_ne] at hgate
        exact hgate.2
      exact Form.find_verdict_single hparts hfeedback

/-- A submission with three parts and a time that cannot be. -/
def Submission.threeParts : Submission :=
  { parts := some [{ index := -3 }, { index := 0 }, { index := 7 }], timeElapsed := -1 }

/-- A form that rejects the first part with blanks, the second with a reason, and approves the
third. -/
def Form.blankFirst : Form :=
  { partsStatus := [.rejected, .rejected, .approved], partsFeedback := [" \t", "no", ""] }

theorem gate_agrees_on_blankFirst :
    Form.blankFirst.canSubmit (Mode.of .threeParts) false false = true ∧
      Problem.find .threeParts (Form.blankFirst.verdict .parts .threeParts) =
        [.negativeTime, .partFeedbackMissing (-2)] := by
  have hgate : Form.blankFirst.canSubmit (Mode.of .threeParts) false false = true := by decide
  have hproblems := gate_agrees_with_judgement .threeParts .blankFirst (fun _ => ⟨rfl, rfl⟩) hgate
  exact ⟨hgate, hproblems.trans (by decide)⟩

end ReviewQueue
