import ReviewQueue.Proofs.Domain.Parts
import ReviewQueue.Proofs.Domain.RoundTrip
import ReviewQueue.Proofs.Review.Effects
import ReviewQueue.Proofs.Review.Landed

/-!
# The order in which parts arrive

A session sorts the parts of its submission before it does anything else, and its form has an entry
at the position of every part. So sessions on one submission whose parts arrived in two orders are
alike but for what surrounds them, and stay so whatever is done to both, up to a save. What they
send addresses every part once, in ascending order, with what was set for its position.

* `Rearranged.sorted_eq` — both arrivals are sorted to the same submission;
* `edited_eq`, `Form.Holds.afterEdits` — what calls do to a form, at each position;
* `session_run` — what is done short of a save changes the form only;
* `puts_submit` — what a submit sends;
* `arrival_order_irrelevant` — the two sessions, side by side.
-/

namespace ReviewQueue

/-! ## Arrivals -/

namespace Submission

/-- A submission that is another one but for the order of its parts. -/
structure Rearranged (a b : Submission) : Prop where
  rest : b = { a with parts := b.parts }
  listed : a.parts.isSome = b.parts.isSome
  perm : a.partList.Perm b.partList

/-- A submission with its parts in ascending order. -/
def sorted (s : Submission) : Submission := { s with parts := s.parts.map Part.sort }

variable {a b : Submission}

theorem partList_sorted (s : Submission) : s.sorted.partList = Part.sort s.partList := by
  unfold sorted partList
  cases s.parts with
  | none => exact List.mergeSort_nil.symm
  | some parts => rfl

/-- The order of arrival is lost when the parts are sorted. -/
theorem Rearranged.sorted_eq (h : a.Rearranged b) (hdistinct : (a.partList.map Part.index).Nodup) :
    a.sorted = b.sorted := by
  have hsort := Part.sort_eq_of_perm h.perm hdistinct
  have hparts : a.parts.map Part.sort = b.parts.map Part.sort := by
    have hlisted := h.listed
    unfold partList at hsort
    cases hpartsa : a.parts with
    | none =>
        have hpartsb : b.parts = none := by
          rw [← Option.not_isSome_iff_eq_none, ← hlisted, hpartsa]
          exact Bool.false_ne_true
        rw [hpartsb]
    | some parts =>
        rw [hpartsa] at hlisted hsort
        obtain ⟨parts', hpartsb⟩ := Option.isSome_iff_exists.mp hlisted.symm
        rw [hpartsb] at hsort ⊢
        exact congrArg some hsort
  unfold sorted
  rw [hparts, h.rest]

end Submission

namespace Form

/-! ## What calls do to a form -/

/-- The form after a call, in a mode. -/
def afterEdit (mode : Mode) (form : Form) : Session.Edit → Form
  | .status status => { form with status }
  | .feedback feedback => { form with feedback }
  | .part position status feedback =>
    if mode = .parts ∧ 0 ≤ position ∧ position < form.partsStatus.length then
      { form with
        partsStatus := form.partsStatus.set position.toNat status
        partsFeedback := form.partsFeedback.set position.toNat feedback }
    else form

/-- The form after calls, one after the other. -/
def afterEdits (mode : Mode) (form : Form) (edits : List Session.Edit) : Form :=
  edits.foldl (afterEdit mode) form

/-- What a form has at a position. -/
structure Holds (form : Form) (position : Nat) (entry : Status × String) : Prop where
  status : form.partsStatus[position]? = some entry.1
  feedback : form.partsFeedback[position]? = some entry.2

end Form

namespace Session

/-- What is set for a position by a call. -/
def Edit.setAt (position : Nat) (entry : Status × String) : Edit → Status × String
  | .part i st text => if i = position then (st, text) else entry
  | .status _ => entry
  | .feedback _ => entry

/-- What is set for the part at a position: what the last call for the position said, or else what
the part came with, where pending stands for no verdict. -/
def setFor (p : Part) (position : Nat) (edits : List Edit) : Status × String :=
  edits.foldl (Edit.setAt position) (Form.seedStatus p, p.feedback)

end Session

namespace Form

variable {form : Form} {position : Nat} {entry : Status × String}

/-- A call sets what it says at its position, and leaves the others. -/
theorem Holds.afterEdit (h : form.Holds position entry) (e : Session.Edit) :
    (form.afterEdit .parts e).Holds position (e.setAt position entry) := by
  cases e with
  | status status => exact ⟨h.status, h.feedback⟩
  | feedback feedback => exact ⟨h.status, h.feedback⟩
  | part i status feedback =>
      obtain ⟨hlt, -⟩ := List.getElem?_eq_some_iff.mp h.status
      obtain ⟨hlt', -⟩ := List.getElem?_eq_some_iff.mp h.feedback
      rw [Form.afterEdit, Session.Edit.setAt]
      by_cases hi : i = position
      · rw [if_pos hi, if_pos ⟨rfl, by omega, by omega⟩, hi, Int.toNat_natCast]
        exact ⟨List.getElem?_set_self hlt, List.getElem?_set_self hlt'⟩
      · rw [if_neg hi]
        split
        · rename_i hrange
          have hne : i.toNat ≠ position := by omega
          exact ⟨(List.getElem?_set_ne hne).trans h.status,
            (List.getElem?_set_ne hne).trans h.feedback⟩
        · exact h

theorem Holds.afterEdits (h : form.Holds position entry) (edits : List Session.Edit) :
    (form.afterEdits .parts edits).Holds position
      (edits.foldl (Session.Edit.setAt position) entry) := by
  induction edits generalizing form entry with
  | nil => exact h
  | cons e edits ih => exact ih (h.afterEdit e)

/-- A form starts with what the parts came with. -/
theorem holds_ofSubmission {s : Submission} (hmode : Mode.of s = .parts) {p : Part}
    (hp : s.partList[position]? = some p) :
    (ofSubmission s).Holds position (seedStatus p, p.feedback) := by
  unfold ofSubmission
  rw [hmode]
  constructor
  · show (s.partList.map seedStatus)[position]? = _
    rw [List.getElem?_map, hp]
    rfl
  · show (s.partList.map Part.feedback)[position]? = _
    rw [List.getElem?_map, hp]
    rfl

/-- The update of the part at a position takes what the form has there. -/
theorem getElem?_partVerdicts (id : Int) {parts : List Part} {statuses : List Status}
    {feedbacks : List String} {p : Part} (hp : parts[position]? = some p) :
    (partVerdicts id parts statuses feedbacks)[position]? =
      some ⟨id, p.index, statuses[position]?.getD .none, feedbacks[position]?.getD ""⟩ := by
  induction parts generalizing position statuses feedbacks with
  | nil => cases hp
  | cons q parts ih =>
      cases position with
      | zero =>
          obtain rfl := Option.some.inj hp
          simp [partVerdicts, List.head?_eq_getElem?]
      | succ position =>
          rw [List.getElem?_cons_succ] at hp
          rw [partVerdicts, List.getElem?_cons_succ, ih hp, List.getElem?_tail, List.getElem?_tail]

end Form

namespace Session

theorem edit_eq (s : Session) (e : Edit) :
    s.edit e = { s with form := s.form.afterEdit s.mode e } := by
  cases e with
  | status status => rfl
  | feedback feedback => rfl
  | part position status feedback =>
      show (s.setPart position status feedback).toOption.getD s = _
      unfold setPart
      by_cases hrange : s.mode = .parts ∧ 0 ≤ position ∧ position < s.form.partsStatus.length
      · rw [if_pos hrange, Form.afterEdit, if_pos hrange]
        rfl
      · rw [if_neg hrange, Form.afterEdit, if_neg hrange]
        rfl

theorem edited_cons (s : Session) (e : Edit) (edits : List Edit) :
    s.edited (e :: edits) = (s.edit e).edited edits := rfl

/-- Calls change the form, by what it is and by the mode. -/
theorem edited_eq (s : Session) (edits : List Edit) :
    s.edited edits = { s with form := s.form.afterEdits s.mode edits } := by
  induction edits generalizing s with
  | nil => rfl
  | cons e edits ih =>
      rw [edited_cons, ih, edit_eq]
      rfl

/-! ## Short of a save -/

/-- The call to a form in what is done to a session. -/
def Act.edit? : Act → Option Edit
  | .edit e => some e
  | .submit _ => none

section InUse

variable [Remote ω]

theorem InUse.run_cons (x : InUse ω) (act : Act) (acts : List Act) :
    x.run (act :: acts) = (x.act act).run acts := rfl

/-- Nothing is saved by what is done: every submit is refused or fails. -/
def InUse.Unsaved (x : InUse ω) : List Act → Prop
  | [] => True
  | .edit e :: acts => (x.act (.edit e)).Unsaved acts
  | .submit e :: acts =>
    (x.session.submit e x.desk).result ≠ .ok () ∧ (x.act (.submit e)).Unsaved acts

/-- A submit that saves nothing leaves the session as it was. -/
theorem submit_session {s : Session} {e : Executor} {d : Desk ω}
    (h : (s.submit e d).result ≠ .ok ()) : (s.submit e d).session = s := by
  by_cases hshut : s.Shut e
  · exact (submit_of_shut hshut).session
  · cases hput : s.put d with
    | mk remote outcome =>
        cases outcome with
        | error cause => exact (submit_of_failed hshut hput).session
        | ok data => exact absurd (submit_of_written hshut hput).2 h

/-- **What is done short of a save changes the form only**, by the calls to it. -/
theorem session_run (x : InUse ω) (acts : List Act) (h : x.Unsaved acts) :
    (x.run acts).session = x.session.edited (acts.filterMap Act.edit?) := by
  induction acts generalizing x with
  | nil => rfl
  | cons act acts ih =>
      rw [InUse.run_cons]
      cases act with
      | edit e => exact ih _ h
      | submit e =>
          obtain ⟨hresult, hrest⟩ := h
          have hsession : (x.act (.submit e)).session = x.session := submit_session hresult
          rw [ih _ hrest, hsession]
          rfl

end InUse

/-! ## What is sent -/

/-- The write among the calls to the outside, with its path and its update. -/
def put? : OutsideCall → Option (String × Verdict)
  | .put path verdict => some (path, verdict)
  | .notify _ => none
  | .refresh _ => none
  | .visit _ => none

/-- What a submit writes. -/
def puts [Remote ω] (s : Session) (e : Executor) (d : Desk ω) : List (String × Verdict) :=
  (s.submit e d).calls.filterMap put?

/-- **A submit writes the update of its form once when the gate is open**, and otherwise nothing. -/
theorem puts_submit [Remote ω] (s : Session) (e : Executor) (d : Desk ω) :
    s.puts e d =
      if s.canSubmit e then [(s.coordinator.detailPath, s.form.verdict s.mode s.submission)]
      else [] := by
  by_cases hshut : s.Shut e
  · rw [puts, (submit_of_shut hshut).calls, (canSubmit_eq_false_iff s e).mpr hshut]
    rfl
  · rw [canSubmit_of_not_shut hshut, if_pos rfl, puts]
    have hnotices (notices : List Notice) :
        (notices.map OutsideCall.notify).filterMap put? = [] := by
      simp [List.filterMap_map, put?]
    cases hput : s.put d with
    | mk remote outcome =>
        cases outcome with
        | error cause =>
            rw [(submit_of_failed hshut hput).calls]
            simp [put?, hnotices]
        | ok data =>
            rw [(submit_of_written hshut hput).1.calls]
            cases s.navigator.advance? <;> simp [put?]

/-! ## Side by side -/

/-- What two sessions in use have in common that differ in what is around their submission only. -/
structure InUse.Alike [Remote ω] [Remote ω'] (x : InUse ω) (x' : InUse ω') : Prop where
  mode : x.session.mode = x'.session.mode
  parts : x.session.submission.partList = x'.session.submission.partList
  form : x.session.form = x'.session.form
  canSubmit : ∀ e, x.session.canSubmit e = x'.session.canSubmit e
  puts : ∀ e, x.session.puts e x.desk = x'.session.puts e x'.desk

/-- The update that a session sends. -/
def update (s : Session) : Verdict := s.form.verdict s.mode s.submission

/-- What a session shows and sends of a submission as it arrived, after calls: every part once, in
ascending order, with what was set for its position. In parts mode the form has an entry for every
part. -/
structure Orderly (s : Session) (arrived : Submission) (edits : List Edit) : Prop where
  sorted : s.submission.partList = Part.sort arrived.partList
  aligned : s.mode = .parts →
    s.form.partsStatus.length = s.submission.partList.length ∧
      s.form.partsFeedback.length = s.submission.partList.length
  ascending : (s.update.partList.map PartVerdict.index).Pairwise (· < ·)
  once : (s.update.partList.map PartVerdict.index).Perm (arrived.partList.map Part.index)
  set : ∀ (i : Nat) (p : Part), s.submission.partList[i]? = some p →
    s.update.partList[i]? =
      some (PartVerdict.mk arrived.id p.index (setFor p i edits).1 (setFor p i edits).2)

/-- An update says of the part at a position what the form has there. -/
theorem getElem?_update {s : Session} (hmode : s.mode = .parts) {i : Nat} {p : Part}
    (hp : s.submission.partList[i]? = some p) {entry : Status × String}
    (hentry : s.form.Holds i entry) :
    s.update.partList[i]? =
      some (PartVerdict.mk s.submission.id p.index entry.1 entry.2) := by
  unfold update
  rw [hmode]
  show (Form.partVerdicts _ _ _ _)[i]? = _
  rw [Form.getElem?_partVerdicts _ hp, hentry.status, hentry.feedback]
  rfl

/-- An update has a verdict for every part of the submission, in the order of the parts. -/
theorem index_update {s : Session} (hmode : s.mode = Mode.of s.submission) :
    s.update.partList.map PartVerdict.index = s.submission.partList.map Part.index := by
  unfold update
  rw [hmode]
  cases hparts : Mode.of s.submission with
  | parts => exact Form.index_partVerdicts _ _ _ _
  | single =>
      have hnone : s.submission.partList = [] := by
        simpa [Mode.of, Submission.hasParts] using hparts
      rw [hnone]
      rfl

/-- A session that was just started is orderly, and stays so when its form is changed. -/
theorem orderly_edited {p : SessionParams} {paths : Paths} {a : Submission}
    (hdistinct : (a.partList.map Part.index).Nodup) (siblings : List (Option Summary))
    (error : Option RequestError) (edits : List Edit) :
    ((start p paths a.sorted siblings error).edited edits).Orderly a edits := by
  let s := start p paths a.sorted siblings error
  have hsorted : s.submission.partList = Part.sort a.partList := a.partList_sorted
  have hedited := edited_eq s edits
  have hindex : (s.edited edits).update.partList.map PartVerdict.index =
      (Part.sort a.partList).map Part.index := by
    rw [index_update (by rw [hedited]; rfl), hedited, ← hsorted]
  refine ⟨?_, ?_, ?_, ?_, ?_⟩
  · rw [hedited]
    exact hsorted
  · intro hmode
    obtain ⟨form, hframe, hstatus, hfeedback⟩ := edited_frame s edits
    rw [hframe] at hmode ⊢
    obtain ⟨hstatus', hfeedback'⟩ := aligned_ofSubmission a.sorted hmode
    exact ⟨hstatus.trans hstatus', hfeedback.trans hfeedback'⟩
  · rw [hindex]
    exact List.pairwise_map.mpr (Part.ascending_sort hdistinct)
  · rw [hindex]
    exact (Part.perm_sort _).map _
  · intro i q hq
    rw [hedited] at hq ⊢
    replace hq : a.sorted.partList[i]? = some q := hq
    have hmode : Mode.of a.sorted = .parts := by
      have hne : a.sorted.partList ≠ [] := List.ne_nil_of_mem (List.mem_of_getElem? hq)
      simp [Mode.of, Submission.hasParts, hne]
    refine getElem?_update hmode hq ?_
    show ((Form.ofSubmission a.sorted).afterEdits (Mode.of a.sorted) edits).Holds i _
    rw [hmode]
    exact (Form.holds_ofSubmission hmode hq).afterEdits edits

/-- Sessions that show one submission are alike, whatever their siblings. -/
theorem InUse.alike_of_start [Remote ω] [Remote ω'] {x : InUse ω} {x' : InUse ω'}
    {p : SessionParams} {paths : Paths} {shown : Submission}
    {siblings siblings' : List (Option Summary)} {error error' : Option RequestError}
    {edits : List Edit}
    (h : x.session = (start p paths shown siblings error).edited edits)
    (h' : x'.session = (start p paths shown siblings' error').edited edits) : x.Alike x' := by
  rw [edited_eq] at h h'
  obtain ⟨session, desk, calls⟩ := x
  obtain ⟨session', desk', calls'⟩ := x'
  obtain rfl := h
  obtain rfl := h'
  refine ⟨rfl, rfl, rfl, fun _ => rfl, fun e => ?_⟩
  rw [puts_submit, puts_submit]
  rfl

/-- **The order in which parts arrive does not matter.** Let one submission be fetched at two desks,
with its parts, whose indexes are distinct, in two orders. Both can be mounted. Whatever is then
done to both sessions, as long as nothing is saved, they have the same mode, the same parts in
order, the same form and the same gate, and a submit writes the same: the update of the form when
the gate is open, and nothing otherwise. The update has every part once, in ascending order, with
the verdict that was set for its position; and in parts mode the form has an entry for every
part. -/
theorem arrival_order_irrelevant [Remote ω] [Remote ω'] {d : Desk ω} {d' : Desk ω'}
    {p : SessionParams} {paths : Paths} {data data' : Option String} {a b : Submission}
    (hpaths : Paths.of p = .ok paths)
    (hfetch : (Remote.fetch d.remote paths.detail).2 = .ok data)
    (hfetch' : (Remote.fetch d'.remote paths.detail).2 = .ok data')
    (ha : Json.decode? {} Submission.fill (data.getD "").toList = some a)
    (hb : Json.decode? {} Submission.fill (data'.getD "").toList = some b)
    (hab : a.Rearranged b) (hdistinct : (a.partList.map Part.index).Nodup) :
    ∃ (x : InUse ω) (x' : InUse ω'), Session.mount d p = (x.desk, .ok x.session) ∧
      Session.mount d' p = (x'.desk, .ok x'.session) ∧
      ∀ acts, x.Unsaved acts → x'.Unsaved acts →
        (x.run acts).Alike (x'.run acts) ∧
        (x.run acts).session.Orderly a (acts.filterMap Act.edit?) ∧
        ∀ e, (x.run acts).session.puts e (x.run acts).desk =
          if (x.run acts).session.canSubmit e then [(paths.detail, (x.run acts).session.update)]
          else [] := by
  obtain ⟨left, siblings, error, hmount⟩ := mount_of_fetched hpaths hfetch ha
  obtain ⟨left', siblings', error', hmount'⟩ := mount_of_fetched hpaths hfetch' hb
  -- both sessions are started on the sorted submission
  change Session.mount d p = (left, .ok (start p paths a.sorted siblings error)) at hmount
  change Session.mount d' p = (left', .ok (start p paths b.sorted siblings' error')) at hmount'
  rw [← hab.sorted_eq hdistinct] at hmount'
  refine ⟨⟨_, left, []⟩, ⟨_, left', []⟩, hmount, hmount', ?_⟩
  intro acts hunsaved hunsaved'
  have hsession := session_run _ acts hunsaved
  have hsession' := session_run _ acts hunsaved'
  refine ⟨InUse.alike_of_start hsession hsession', ?_, ?_⟩
  · rw [hsession]
    exact orderly_edited hdistinct siblings error _
  · intro e
    rw [puts_submit, hsession, edited_eq]
    rfl

end Session

/-! ## Two answers with one submission -/

/-- A service that answers every read with one text, and refuses every write. -/
structure ReadOnlyText where
  text : String

instance : Remote ReadOnlyText where
  fetch r _ := (r, .ok (some r.text))
  send r _ _ _ := (r, .error (.refused 503 []))
  now _ := .zero

/-- A desk at a service that answers with a submission. -/
def Desk.answering (s : Submission) : Desk ReadOnlyText := { remote := ⟨s.body⟩ }

/-- The first submission, with parts as they arrive. -/
def Submission.ofParts (parts : List Part) : Submission := { id := 1, parts := some parts }

/-- What is answered is decoded with its parts as they stand. -/
theorem Submission.decode_ofParts {parts : List Part} (h : ∀ p ∈ parts, fitsWord p.index = true) :
    Json.decode? {} Submission.fill (ofParts parts).body.toList = some (ofParts parts) := by
  have hraws : (ofParts parts).RawsCompact := ⟨.inl rfl, .inl rfl, .inl rfl, .inl rfl⟩
  have hportable : (ofParts parts).Portable :=
    ⟨rfl, rfl, h, by simp [ofParts], by simp [ofParts], Timestamp.isReal_zero,
      Timestamp.isReal_zero⟩
  obtain ⟨t, ht⟩ := exists_json hraws.within ⟨Timestamp.isNear_zero, Timestamp.isNear_zero⟩
  rw [decode_body hportable hraws.within ht, compacted_of_rawsCompact hraws]

namespace Session

/-- A service that refuses every write saves nothing. -/
theorem InUse.unsaved_readOnlyText (x : InUse ReadOnlyText) (acts : List Act) : x.Unsaved acts := by
  induction acts generalizing x with
  | nil => trivial
  | cons act acts ih =>
      cases act with
      | edit e => exact ih _
      | submit e =>
          refine ⟨?_, ih _⟩
          intro hok
          obtain ⟨-, remote, data, hwritten⟩ := submit_eq_ok hok
          cases hwritten.sent

/-- The second part is rejected, a submit fails, and the first part is approved. -/
def twoActs : List Act :=
  [.edit (.part 1 .rejected "no"), .submit {}, .edit (.part 0 .approved "")]

theorem arrival_order_irrelevant_twoParts : ∃ x x' : InUse ReadOnlyText,
    Session.mount (.answering (.ofParts [{ index := 7 }, { index := -2 }])) .twoParts =
      (x.desk, .ok x.session) ∧
    Session.mount (.answering (.ofParts [{ index := -2 }, { index := 7 }])) .twoParts =
      (x'.desk, .ok x'.session) ∧
    (x.run twoActs).session.form = (x'.run twoActs).session.form ∧
    (x.run twoActs).session.update.partList[0]? = some ⟨1, -2, .approved, ""⟩ ∧
    (x.run twoActs).session.update.partList[1]? = some ⟨1, 7, .rejected, "no"⟩ := by
  have hname : IsName "p" ∧ IsName "b" := by decide
  have hpaths := paths_of_names (p := .twoParts) hname.1 hname.2 (isName_ofInt 1)
  have hturned : (Submission.ofParts [{ index := 7 }, { index := -2 }]).Rearranged
      (.ofParts [{ index := -2 }, { index := 7 }]) := ⟨rfl, rfl, List.Perm.swap _ _ []⟩
  have hfetch (arrived : Submission) (path : String) :
      (Remote.fetch (Desk.answering arrived).remote path).2 = .ok (some arrived.body) := rfl
  obtain ⟨x, x', hmount, hmount', hacts⟩ := arrival_order_irrelevant hpaths (hfetch _ _)
    (hfetch _ _) (Submission.decode_ofParts (by decide)) (Submission.decode_ofParts (by decide))
    hturned (by decide)
  obtain ⟨halike, horderly, -⟩ :=
    hacts twoActs (x.unsaved_readOnlyText _) (x'.unsaved_readOnlyText _)
  have hparts :
      (x.run twoActs).session.submission.partList = [{ index := -2 }, { index := 7 }] := by
    rw [horderly.sorted, Part.sort_eq_of_perm hturned.perm (by decide)]
    exact Part.sort_of_sorted (by decide)
  refine ⟨x, x', hmount, hmount', halike.form, ?_, ?_⟩
  · exact horderly.set 0 { index := -2 } (by rw [hparts]; rfl)
  · exact horderly.set 1 { index := 7 } (by rw [hparts]; rfl)

end Session
end ReviewQueue
