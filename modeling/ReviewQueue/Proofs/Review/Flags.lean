import ReviewQueue.Proofs.Review.Given
import ReviewQueue.Proofs.Text.Decimal

/-!
# Part verdicts by number

On the command line a part is named by a number, counted from one, and the number is taken for a
position in the list of parts. The list is in the order of the indexes, and what is displayed beside
a part is its index plus one. `part_flags_land` says where the verdicts of a saved review are: each
of them on the part at the position that its number names, which is the part displayed with that
number when its index is that position.

* `Reviewer.applyParts_eq_ok` — flags in sequence: at every position the last one counts;
* `Reviewer.draftMissing_eq_ok` — a draft leaves verdicts and feedback that was given;
* `Reviewer.GivenSave.landed` — what the save of such a review leaves in the store;
* `part_flags_land` — the whole review.
-/

namespace ReviewQueue

/-! ## Numbers of flags -/

namespace PartFlag

/-- The flag that counts for a number: of several, the last. Texts that are no flags do not
count. -/
def lastFor? (raws : List String) (number : Int) : Option PartFlag :=
  ((raws.filterMap fun raw => (read raw).toOption).filter (·.position + 1 == number)).getLast?

theorem lastFor?_cons {raw : String} {f : PartFlag} (h : read raw = .ok f) (rest : List String)
    (number : Int) :
    lastFor? (raw :: rest) number =
      (lastFor? rest number).or (if f.position + 1 = number then some f else none) := by
  have hread : (raw :: rest).filterMap (fun raw => (read raw).toOption) =
      f :: rest.filterMap fun raw => (read raw).toOption :=
    List.filterMap_cons_some (by rw [h]; rfl)
  unfold lastFor?
  rw [hread]
  by_cases hnumber : f.position + 1 = number
  · rw [List.filter_cons_of_pos (by simpa using hnumber), List.getLast?_cons, if_pos hnumber]
    cases (List.filter _ _).getLast? <;> rfl
  · rw [List.filter_cons_of_neg (by simpa using hnumber), if_neg hnumber, Option.or_none]

theorem eq_of_lastFor? {raws : List String} {number : Int} {f : PartFlag}
    (h : lastFor? raws number = some f) :
    (∃ raw ∈ raws, read raw = .ok f) ∧ f.position + 1 = number := by
  obtain ⟨hmem, hnumber⟩ := List.mem_filter.mp (List.mem_of_getLast? h)
  obtain ⟨raw, hraw, hread⟩ := List.mem_filterMap.mp hmem
  refine ⟨⟨raw, hraw, ?_⟩, by simpa using hnumber⟩
  cases hflag : read raw with
  | error e =>
      rw [hflag] at hread
      cases hread
  | ok g =>
      rw [hflag] at hread
      exact congrArg Except.ok (Option.some.inj hread)

/-- The number of a flag is at least one and fits a word. -/
theorem number_of_read {raw : String} {f : PartFlag} (h : read raw = .ok f) :
    1 ≤ f.position + 1 ∧ fitsWord (f.position + 1) = true := by
  have hnumber {s : List Char} {n : Int} (hn : number? s = some n) :
      1 ≤ n ∧ fitsWord n = true := by
    unfold number? at hn
    split at hn
    · rename_i hread
      split at hn
      · rename_i hpos
        obtain rfl := Option.some.inj hn
        exact ⟨hpos, Text.fitsWord_of_readNumeral hread⟩
      · cases hn
    · cases hn
  unfold read at h
  split at h
  · cases h
  · split at h
    · cases h
    · rename_i hn
      simp only at h
      split at h
      · obtain rfl := Except.ok.inj h
        simpa using hnumber hn
      · cases h

end PartFlag

/-- A part is displayed with a number exactly when the number is its index plus one. -/
theorem Problem.partNumber_eq_iff {index number : Int} (hindex : fitsWord index = true)
    (hpos : 1 ≤ number) (hnumber : fitsWord number = true) :
    partNumber index = number ↔ index = number - 1 := by
  simp only [fitsWord, Bool.and_eq_true, decide_eq_true_eq] at hindex hnumber
  unfold wordMin wordMax at hindex hnumber
  rw [partNumber, wrapWord, Int.bmod_def]
  split <;> omega

/-! ## From the flags to the form -/

namespace Reviewer

variable {s given : Session}

theorem setPart_eq_ok {position : Int} {status : Status} {feedback : String}
    (h : s.setPart position status feedback = .ok given) :
    ∃ i : Nat, position = i ∧ i < s.form.partsStatus.length ∧
      given =
        { s with
          form := { s.form with
            partsStatus := s.form.partsStatus.set i status
            partsFeedback := s.form.partsFeedback.set i feedback } } := by
  unfold Session.setPart at h
  split at h
  · rename_i hrange
    obtain ⟨i, rfl⟩ := Int.eq_ofNat_of_zero_le hrange.2.1
    exact ⟨i, rfl, by omega, (Except.ok.inj h).symm⟩
  · cases h

/-- What flags make of a form: at every position the verdict of the last flag for it, and what was
there at a position without a flag. -/
structure Flagged (raws : List String) (before after : Form) : Prop where
  statuses : ∀ i : Nat, after.partsStatus[i]? =
    ((PartFlag.lastFor? raws (i + 1)).map PartFlag.status).or before.partsStatus[i]?
  feedbacks : ∀ i : Nat, after.partsFeedback[i]? =
    ((PartFlag.lastFor? raws (i + 1)).map PartFlag.feedback).or before.partsFeedback[i]?

/-- Flags in sequence change nothing but the form, and leave it as long as it was. -/
theorem applyParts_eq_ok {raws : List String}
    (haligned : s.form.partsFeedback.length = s.form.partsStatus.length)
    (h : applyParts s raws = .ok given) :
    ∃ form, given = { s with form } ∧
      form.partsStatus.length = s.form.partsStatus.length ∧
      form.partsFeedback.length = s.form.partsFeedback.length ∧ Flagged raws s.form form := by
  induction raws generalizing s with
  | nil =>
      obtain rfl := Except.ok.inj h
      exact ⟨s.form, rfl, rfl, rfl, fun _ => rfl, fun _ => rfl⟩
  | cons raw rest ih =>
      unfold applyParts at h
      split at h
      · cases h
      · rename_i f hread
        split at h
        · cases h
        · rename_i next hset
          obtain ⟨i, hposition, hlt, rfl⟩ := setPart_eq_ok hset
          obtain ⟨form, hgiven, hstatuses, hfeedbacks, hflagged⟩ :=
            ih (by simpa using haligned) h
          refine ⟨form, hgiven, by simpa using hstatuses, by simpa using hfeedbacks, ?_, ?_⟩
          · intro j
            rw [hflagged.statuses j, PartFlag.lastFor?_cons hread, hposition, List.getElem?_set]
            by_cases hj : i = j
            · cases PartFlag.lastFor? rest (j + 1) <;> simp [hj, hj ▸ hlt]
            · cases PartFlag.lastFor? rest (j + 1) <;> simp [hj]
          · intro j
            rw [hflagged.feedbacks j, PartFlag.lastFor?_cons hread, hposition, List.getElem?_set]
            by_cases hj : i = j
            · cases PartFlag.lastFor? rest (j + 1) <;> simp [hj, haligned, hj ▸ hlt]
            · cases PartFlag.lastFor? rest (j + 1) <;> simp [hj]

/-- A verdict that is given beforehand changes nothing but the form. Only a submission with parts
takes flags. -/
theorem applyVerdict_eq_ok {request : ReviewRequest}
    (haligned : s.form.partsFeedback.length = s.form.partsStatus.length)
    (h : applyVerdict request s = .ok given) :
    ∃ form, given = { s with form } ∧
      form.partsStatus.length = s.form.partsStatus.length ∧
      form.partsFeedback.length = s.form.partsFeedback.length ∧
      (request.parts ≠ [] → s.mode = .parts ∧ Flagged request.parts s.form form) := by
  unfold applyVerdict at h
  split at h
  · cases h
  · split at h
    · rename_i hmode
      split at h
      · cases h
      · obtain ⟨form, hgiven, hstatuses, hfeedbacks, hflagged⟩ := applyParts_eq_ok haligned h
        exact ⟨form, hgiven, hstatuses, hfeedbacks, fun _ => ⟨hmode, hflagged⟩⟩
    · split at h
      · cases h
      · rename_i hnone
        exact ⟨_, (Except.ok.inj h).symm, rfl, rfl,
          fun hparts => absurd (by simpa using hnone) hparts⟩

/-! ## Drafts -/

/-- Whether a feedback that was given is what was stored, or said nothing and was drafted. -/
def Kept (drafter : Option Drafter) (given stored : String) : Prop :=
  stored = given ∨ drafter.isSome = true ∧ Text.isBlankText given = true

theorem length_fillParts {d : Draft} {parts : List Part} {feedbacks filled : List String}
    (h : fillParts d parts feedbacks = some filled) : filled.length = feedbacks.length := by
  induction parts generalizing feedbacks filled with
  | nil =>
      obtain rfl := Option.some.inj h
      rfl
  | cons p parts ih =>
      cases feedbacks with
      | nil => cases h
      | cons f feedbacks =>
          obtain ⟨rest, hrest, rfl⟩ := Option.map_eq_some_iff.mp h
          exact congrArg (· + 1) (ih hrest)

theorem getElem?_fillParts {d : Draft} {parts : List Part} {feedbacks filled : List String}
    (h : fillParts d parts feedbacks = some filled) {i : Nat} {f : String}
    (hf : feedbacks[i]? = some f) :
    ∃ f', filled[i]? = some f' ∧ (f' = f ∨ Text.isBlankText f = true) := by
  induction parts generalizing feedbacks filled i with
  | nil =>
      obtain rfl := Option.some.inj h
      exact ⟨f, hf, .inl rfl⟩
  | cons p parts ih =>
      cases feedbacks with
      | nil => cases h
      | cons g feedbacks =>
          obtain ⟨rest, hrest, rfl⟩ := Option.map_eq_some_iff.mp h
          cases i with
          | succ i => exact ih hrest hf
          | zero =>
              obtain rfl := Option.some.inj hf
              refine ⟨_, rfl, ?_⟩
              by_cases hblank : Text.isBlankText g = true
              · exact .inr hblank
              · exact .inl (if_neg hblank)

/-- A form is filled in its mode: as a whole, or part by part. -/
theorem fillForm_eq_some {d : Draft} (h : fillForm d s = some given) :
    (s.mode = .single ∧ given = { s with form := { s.form with
        feedback := if Text.isBlankText s.form.feedback then d.feedback else s.form.feedback } }) ∨
    ∃ filled, s.mode = .parts ∧
      fillParts d s.submission.partList s.form.partsFeedback = some filled ∧
      given = { s with form := { s.form with partsFeedback := filled } } := by
  unfold fillForm at h
  split at h
  · rename_i hmode
    refine .inl ⟨hmode, ?_⟩
    rw [← Option.some.inj h]
    split <;> rfl
  · rename_i hmode
    obtain ⟨filled, hfilled, rfl⟩ := Option.map_eq_some_iff.mp h
    exact .inr ⟨filled, hmode, hfilled, rfl⟩

/-- A draft that succeeds was made, and fills the form. -/
theorem draftMissing_some_eq_ok {drafter : Drafter}
    (h : draftMissing (some drafter) s = .ok given) :
    ∃ d, Draft.request drafter s.submission s.form.status s.form.partsStatus = .ok d ∧
      fillForm d s = some given := by
  unfold draftMissing at h
  simp only at h
  split at h
  · cases h
  · rename_i d hdraft
    split at h
    · rename_i filled hfilled
      obtain rfl := Except.ok.inj h
      exact ⟨d, hdraft, hfilled⟩
    · cases h

/-- A draft changes nothing but feedback that said nothing. -/
theorem draftMissing_eq_ok {drafter : Option Drafter} (h : draftMissing drafter s = .ok given) :
    ∃ form, given = { s with form } ∧ form.partsStatus = s.form.partsStatus ∧
      form.partsFeedback.length = s.form.partsFeedback.length ∧
      ∀ (i : Nat) (f : String), s.form.partsFeedback[i]? = some f →
        ∃ f', form.partsFeedback[i]? = some f' ∧ Kept drafter f f' := by
  cases drafter with
  | none =>
      obtain rfl := Except.ok.inj h
      exact ⟨s.form, rfl, rfl, rfl, fun i f hf => ⟨f, hf, .inl rfl⟩⟩
  | some drafter =>
      obtain ⟨d, -, hfilled⟩ := draftMissing_some_eq_ok h
      obtain ⟨-, rfl⟩ | ⟨filled, -, hparts, rfl⟩ := fillForm_eq_some hfilled
      · exact ⟨_, rfl, rfl, rfl, fun i f hf => ⟨f, hf, .inl rfl⟩⟩
      · refine ⟨_, rfl, rfl, length_fillParts hparts, fun i f hf => ?_⟩
        obtain ⟨f', hf', hkept⟩ := getElem?_fillParts hparts hf
        exact ⟨f', hf', hkept.imp id fun hblank => ⟨rfl, hblank⟩⟩

/-! ## From the form to the store -/

/-- A form with the verdicts that are given beforehand: as long as before, and with the verdict of
the last flag for a number at the position before it. -/
structure Given (plan : ReviewPlan) (s : Session) (form : Form) : Prop where
  statuses : form.partsStatus.length = s.form.partsStatus.length
  feedbacks : form.partsFeedback.length = s.form.partsFeedback.length
  flags : ∀ number f, PartFlag.lastFor? plan.request.parts number = some f →
    s.mode = .parts ∧ ∃ i : Nat, number = i + 1 ∧ form.partsStatus[i]? = some f.status ∧
      ∃ feedback, form.partsFeedback[i]? = some feedback ∧ Kept plan.drafter f.feedback feedback

theorem given_eq_ok {plan : ReviewPlan}
    (haligned : s.form.partsFeedback.length = s.form.partsStatus.length)
    (h : applyVerdict plan.request s >>= draftMissing plan.drafter = .ok given) :
    ∃ form, given = { s with form } ∧ Given plan s form := by
  cases happlied : applyVerdict plan.request s with
  | error e =>
      rw [happlied] at h
      cases h
  | ok applied =>
      rw [happlied] at h
      obtain ⟨form, rfl, hstatuses, hfeedbacks, hparts⟩ := applyVerdict_eq_ok haligned happlied
      obtain ⟨form', rfl, hsame, hlength, hkept⟩ := draftMissing_eq_ok h
      refine ⟨form', rfl, by rw [hsame, hstatuses], hlength.trans hfeedbacks, ?_⟩
      intro number f hlast
      obtain ⟨⟨raw, hraw, hread⟩, hnumber⟩ := PartFlag.eq_of_lastFor? hlast
      obtain ⟨hmode, hflagged⟩ := hparts (List.ne_nil_of_mem hraw)
      obtain ⟨hpos, -⟩ := PartFlag.number_of_read hread
      obtain ⟨i, hi⟩ := Int.eq_ofNat_of_zero_le (show 0 ≤ f.position by omega)
      obtain rfl : number = i + 1 := by omega
      refine ⟨hmode, i, rfl, ?_, hkept i f.feedback ?_⟩
      · rw [hsame, hflagged.statuses i, hlast]
        rfl
      · rw [hflagged.feedbacks i, hlast]
        rfl

/-- A session that was loaded has as many verdicts as feedbacks. -/
theorem aligned_of_mount [Remote ω] {d d' : Desk ω} {p : SessionParams}
    (h : Session.mount d p = (d', .ok s)) :
    s.form.partsFeedback.length = s.form.partsStatus.length := by
  obtain ⟨paths, data, loaded, -, -, -, -, rfl⟩ := Session.mount_eq_ok h
  show (Form.ofSubmission _).partsFeedback.length = (Form.ofSubmission _).partsStatus.length
  unfold Form.ofSubmission
  split
  · rfl
  · rw [List.length_map, List.length_map]

/-- A review that saves a verdict which was given beforehand leaves its form in the store. -/
theorem GivenSave.landed {plan : ReviewPlan} {r started saved : Reviewer (Wire RunningService)}
    {id : String} (h : GivenSave plan started id s given saved) (hsound : r.desk.store.Sound)
    (hclock : r.desk.remote.peer.clock.Sound)
    (hstart : (start plan).run.run r = (.ok id, started)) :
    ∃ form old new result, given = { s with form } ∧ Given plan s form ∧
      given.Landed r.desk.store (run plan r).1.desk.store result old new ∧
      ∀ p ∈ new.partList, fitsWord p.index = true := by
  have hrest := (h.browsed hstart).same.store
  obtain ⟨mounted, shown, path, -, hmount, hpresent, hgives, hsubmit⟩ := h
  obtain ⟨hsession, -⟩ := mount_eq_ok hmount
  obtain ⟨hok, -, hdesk, -⟩ := submit_eq_ok hsubmit
  -- up to the save the desk is only read from
  have hbegin : r.desk.Browsed started.desk.settle := by
    have hreads := (reads_start plan r).1
    rw [hstart] at hreads
    exact .settle hreads
  have hshow : mounted.desk.Browsed shown.desk := by
    have hreads := (reads_present s mounted).1
    rwa [hpresent] at hreads
  have hread := ((Session.browsed_of_mount hsession).trans hshow).same
  have hstore : started.desk.settle.store = r.desk.store := hbegin.same.store
  have hsound' : started.desk.settle.store.Sound := by rwa [hstore]
  have hclock' : shown.desk.remote.peer.clock.Sound :=
    (hclock.of_time hbegin.same.peer.time).of_time hread.peer.time
  obtain ⟨form, rfl, hform⟩ := given_eq_ok (aligned_of_mount hsession) hgives
  obtain ⟨old, now, hsaved⟩ := Session.saved_of_submit_form hsession hsound' hform.statuses
    hform.feedbacks hread.client hread.store hclock' hok
  have hlanded := hsaved.landed hsound'
  rw [hstore, ← hdesk, ← hrest] at hlanded
  refine ⟨form, old, _, _, rfl, hform, hlanded, fun p hp => ?_⟩
  rw [Session.partList_reviewed] at hp
  obtain ⟨q, hq, rfl⟩ := List.mem_map.mp hp
  rw [Part.decided_index]
  exact (hsound'.portable hsaved.found).parts q hq

end Reviewer

open Reviewer

/-- **Where the verdicts of a review land whose parts are given by number.** Let a review that is
given part verdicts start at a service with a sound store, and let it save. At the end of the review
the parts of the submission have the indexes that were displayed, in ascending order, and the
verdict of the last flag for every number stands at the position before that number, with its
feedback, or a drafted one where it gave none. That part is displayed with the number of the flag
exactly when its index is its position, and then it is the only one that is. -/
theorem part_flags_land (plan : ReviewPlan) (r started saved : Reviewer (Wire RunningService))
    (id : String) (s given : Session) (hsound : r.desk.store.Sound)
    (hclock : r.desk.remote.peer.clock.Sound)
    (hstart : (start plan).run.run r = (.ok id, started))
    (hsave : GivenSave plan started id s given saved) :
    ∃ new, (run plan r).1.desk.store.get s.submission.id = .ok new ∧
      new.partList.map Part.index = s.submission.partList.map Part.index ∧
      (new.partList.map Part.index).Pairwise (· < ·) ∧
      ∀ number f, PartFlag.lastFor? plan.request.parts number = some f →
        ∃ (i : Nat) (p : Part), number = i + 1 ∧ new.partList[i]? = some p ∧
          p.status = f.status ∧ Kept plan.drafter f.feedback p.feedback ∧
          (Problem.partNumber p.index = number ↔ p.index = i) ∧
          (p.index = i → ∀ q ∈ new.partList, Problem.partNumber q.index = number → q = p) := by
  obtain ⟨form, old, new, result, rfl, hform, hlanded, hfits⟩ := hsave.landed hsound hclock hstart
  have hascending : (new.partList.map Part.index).Pairwise (· < ·) :=
    hlanded.indexes ▸ hlanded.ascending
  refine ⟨new, hlanded.stored, hlanded.indexes, hascending, fun number f hlast => ?_⟩
  obtain ⟨hmode, i, rfl, hstatus, feedback, hfeedback, hkept⟩ := hform.flags number f hlast
  obtain ⟨⟨raw, -, hread⟩, hnumber⟩ := PartFlag.eq_of_lastFor? hlast
  obtain ⟨hpos, hword⟩ := PartFlag.number_of_read hread
  rw [hnumber] at hpos hword
  -- the form stands in the store, position by position
  rw [← hlanded.statuses hmode, List.getElem?_map, Option.map_eq_some_iff] at hstatus
  rw [← hlanded.feedbacks hmode, List.getElem?_map, Option.map_eq_some_iff] at hfeedback
  obtain ⟨p, hp, hstatus⟩ := hstatus
  obtain ⟨q, hq, rfl⟩ := hfeedback
  obtain rfl := Option.some.inj (hp.symm.trans hq)
  have hshown {q : Part} (hq : q ∈ new.partList) :
      Problem.partNumber q.index = i + 1 ↔ q.index = i := by
    rw [Problem.partNumber_eq_iff (hfits q hq) hpos hword, Int.add_sub_cancel]
  have hmem := List.mem_of_getElem? hp
  refine ⟨i, p, rfl, hp, hstatus, hkept, hshown hmem, fun hindex q hq hnumber => ?_⟩
  -- no index is there twice
  have hnodup : (new.partList.map Part.index).Nodup := hascending.imp fun h => ne_of_lt h
  exact List.inj_on_of_nodup_map hnodup hq hmem (((hshown hq).mp hnumber).trans hindex.symm)

/-! ## Two flags -/

/-- A submission of two parts, whose indexes start at a number. -/
def Submission.twoFrom (first : Int) : Submission :=
  { id := 1
    projectId := "p"
    batchId := "b"
    parts := some [{ index := first }, { index := first + 1 }] }

/-- A store with that submission. -/
def Store.twoFrom (first : Int) : Store :=
  { lastId := 1
    submissions := [.ofSubmission (.twoFrom first)]
    parts := [⟨1, first, none, none⟩, ⟨1, first + 1, none, none⟩] }

/-- A reviewer at a service with that store. -/
def Reviewer.atTwoFrom (first : Int) : Reviewer (Wire RunningService) :=
  { terminal := {}
    desk :=
      { remote :=
          { client := ⟨"http://localhost:8080"⟩
            peer :=
              ⟨{ store := .twoFrom first }, { time := fun _ => .zero, id := fun _ => "" }⟩ } } }

/-- A review that approves part 1 and rejects part 2. -/
def ReviewPlan.twoFlags : ReviewPlan :=
  { request :=
      { project := "p"
        batch := "b"
        parts := ["1=APPROVED", "2=REJECTED:blurry"] }
    preferences := .ofSettings "" "" [] [] }

/-- The form of those flags. -/
def Form.twoFlags : Form :=
  { partsStatus := [.approved, .rejected], partsFeedback := ["", "blurry"] }

theorem PartFlag.lastFor?_twoFlags :
    lastFor? ReviewPlan.twoFlags.request.parts 1 = some ⟨0, .approved, ""⟩ ∧
      lastFor? ReviewPlan.twoFlags.request.parts 2 = some ⟨1, .rejected, "blurry"⟩ := by
  decide +kernel

section TwoFrom

variable {first : Int}

theorem Store.twoFrom_sound (h : first = 0 ∨ first = 1) : (Store.twoFrom first).Sound := by
  have hrow : (SubmissionRow.ofSubmission (.twoFrom first)).Sound := ⟨Int.one_pos, rfl, rfl⟩
  refine ⟨List.nodup_singleton 1, ?_, List.forall_mem_singleton.mpr hrow, ?_⟩
  · obtain rfl | rfl := h <;> decide
  · obtain rfl | rfl := h <;> decide

theorem Store.twoFrom_get (h : first = 0 ∨ first = 1) :
    (Store.twoFrom first).get 1 = .ok (.twoFrom first) := by
  have hparts : (Store.twoFrom first).partsOf 1 = [{ index := first }, { index := first + 1 }] := by
    simp [Store.partsOf, Store.twoFrom, PartRow.part, Column.text, Part.sort, List.mergeSort,
      List.MergeSort.Internal.splitInTwo, Status.none]
  refine Store.get_eq_ok_iff.mpr ⟨rfl, .ofSubmission (.twoFrom first), rfl,
    SubmissionRow.readable_ofSubmission Timestamp.isKept_zero Timestamp.isKept_zero, ?_⟩
  rw [hparts]
  obtain rfl | rfl := h <;> decide +kernel

theorem Store.twoFrom_batch (first : Int) :
    (Store.twoFrom first).batch "p" "b" = [.ofSubmission (.twoFrom first)] := by
  have hfilter : (Store.twoFrom first).submissions.filter (ListFilter.mk "p" "b" .none).admits =
      [.ofSubmission (.twoFrom first)] := by
    rfl
  rw [Store.batch, hfilter]
  exact List.mergeSort_singleton _

theorem Store.twoFrom_near (first : Int) : (Store.twoFrom first).BatchNear "p" "b" := by
  rw [Store.BatchNear, Store.twoFrom_batch]
  exact List.forall_mem_singleton.mpr
    ⟨.zero, Timestamp.isKept_zero.ofColumn?_column, Timestamp.isNear_zero⟩

/-- The flags make that form. -/
theorem applyVerdict_twoFlags {s : Session} (hmode : s.mode = .parts)
    (hreadOnly : s.readOnly = false)
    (hform : s.form =
      { partsStatus := [.pendingReview, .pendingReview], partsFeedback := ["", ""] }) :
    applyVerdict ReviewPlan.twoFlags.request s >>= draftMissing ReviewPlan.twoFlags.drafter =
      .ok { s with form := .twoFlags } := by
  have hone : PartFlag.read "1=APPROVED" = .ok ⟨0, .approved, ""⟩ := by decide +kernel
  have htwo : PartFlag.read "2=REJECTED:blurry" = .ok ⟨1, .rejected, "blurry"⟩ := by decide +kernel
  have hstatus : ReviewPlan.twoFlags.request.status = "" := rfl
  have hparts : ReviewPlan.twoFlags.request.parts = ["1=APPROVED", "2=REJECTED:blurry"] := rfl
  simp [applyVerdict, hreadOnly, hmode, hstatus, hparts, applyParts, hone, htwo, Session.setPart,
    hform]
  rfl

/-- That review saves those flags. -/
theorem twoFlags_saved (h : first = 0 ∨ first = 1) :
    ∃ started s saved,
      (start ReviewPlan.twoFlags).run.run (.atTwoFrom first) = (.ok (Text.ofInt 1), started) ∧
      s.submission = (Submission.twoFrom first).compacted ∧ s.mode = .parts ∧
      GivenSave .twoFlags started (Text.ofInt 1) s { s with form := .twoFlags } saved := by
  have hplan : Plain .twoFlags := ⟨by decide, by decide, rfl⟩
  have hclock : (Reviewer.atTwoFrom first).desk.remote.peer.clock.Sound :=
    fun _ => Timestamp.isKept_zero
  have hsound : (Reviewer.atTwoFrom first).desk.store.Sound := Store.twoFrom_sound h
  have hnear : (Reviewer.atTwoFrom first).desk.store.BatchNear "p" "b" := Store.twoFrom_near first
  have hbatch : (Reviewer.atTwoFrom first).desk.store.batch "p" "b" =
      [.ofSubmission (.twoFrom first)] := Store.twoFrom_batch first
  have hwaiting : (Reviewer.atTwoFrom first).desk.store.waiting "p" "b" = [1] := by
    rw [Store.waiting, hbatch]
    rfl
  have hlists := lists_of_start hplan.project hplan.batch Client.atOrigin_localhost hclock hsound
    rfl hnear
  let started : Reviewer (Wire RunningService) :=
    { Reviewer.atTwoFrom first with
      desk := ((Reviewer.atTwoFrom first).desk.get (Endpoint.listPath "p" "b")).1 }
  have hfirst : (firstPending ReviewPlan.twoFlags.request).run.run (.atTwoFrom first) =
      (.ok (some 1), started) :=
    (firstPending_run hplan.project hplan.batch Client.atOrigin_localhost hsound rfl hnear).trans
      (congrArg (fun queue : List Int => (Except.ok queue.head?, started)) hwaiting)
  have hstart : (start ReviewPlan.twoFlags).run.run (.atTwoFrom first) =
      (.ok (Text.ofInt 1), started) := by
    have hid : ¬ (ReviewPlan.twoFlags.request.id != "") = true := by decide
    unfold start
    rw [if_neg hid, run_bind, hfirst]
    rfl
  have hsame := (Desk.fetched_get (Reviewer.atTwoFrom first).desk (Endpoint.listPath "p" "b")).same
  have hstore : started.desk.store = Store.twoFrom first := hsame.store
  have hid : 1 ∈ ((Reviewer.atTwoFrom first).desk.store.batch "p" "b").map SubmissionRow.id := by
    rw [hbatch]
    exact List.mem_singleton.mpr rfl
  obtain ⟨t, ht⟩ : ∃ t, (Submission.twoFrom first).json? = some t := by
    refine Option.isSome_iff_exists.mp ?_
    obtain rfl | rfl := h <;> decide +kernel
  -- the list is the only path that was fetched
  have hcache : ∀ text ∈
      (started.desk.cache.cached (Endpoint.attachmentsPath (Text.ofInt 1))).data,
        text = "[]\n" := by
    have hpath : Endpoint.attachmentsPath (Text.ofInt 1) ≠ Endpoint.listPath "p" "b" := by
      decide +kernel
    have hentry := (Desk.fetched_get (Reviewer.atTwoFrom first).desk
      (Endpoint.listPath "p" "b")).entries (Endpoint.attachmentsPath (Text.ofInt 1))
    rw [Cache.entry?_store_of_ne _ _ hpath] at hentry
    unfold Cache.cached
    rw [hentry]
    simp [Reviewer.atTwoFrom, Cache.entry?]
  have hjudged : Problem.find (.twoFrom first)
      (Form.twoFlags.verdict (Mode.of (.twoFrom first)) (.twoFrom first)) = [] := by
    obtain rfl | rfl := h <;> decide +kernel
  obtain ⟨s, saved, hs, hmode, hsave⟩ := exists_givenSave hplan rfl hlists hid
    (by rw [hstore]; exact List.forall_mem_nil _) hcache rfl
    (by rw [hstore]; exact Store.twoFrom_get h) ht
    (Submission.rawsWithin_of_empty rfl rfl rfl rfl)
    (fun s _ hmode hreadOnly hform => applyVerdict_twoFlags hmode hreadOnly hform) rfl hjudged
  exact ⟨started, s, saved, hstart, hs, hmode, hsave⟩

end TwoFrom

/-- Where the parts are counted from zero, part 2 is the one that is rejected. -/
theorem part_flags_land_from_zero :
    ∃ started s given saved new,
      (start ReviewPlan.twoFlags).run.run (.atTwoFrom 0) = (.ok (Text.ofInt 1), started) ∧
      GivenSave .twoFlags started (Text.ofInt 1) s given saved ∧
      (run .twoFlags (.atTwoFrom 0)).1.desk.store.get 1 = .ok new ∧
      ∃ p ∈ new.partList, Problem.partNumber p.index = 2 ∧ p.status = .rejected ∧
        p.feedback = "blurry" := by
  obtain ⟨started, s, saved, hstart, hs, -, hsave⟩ := twoFlags_saved (.inl rfl)
  obtain ⟨new, hget, hindexes, -, hland⟩ := part_flags_land .twoFlags (.atTwoFrom 0) started saved
    (Text.ofInt 1) s _ (Store.twoFrom_sound (.inl rfl))
    (fun _ => Timestamp.isKept_zero) hstart hsave
  obtain ⟨i, p, hi, hp, hstatus, hkept, hshown, -⟩ := hland 2 _ PartFlag.lastFor?_twoFlags.2
  obtain rfl : i = 1 := by omega
  have hindex : p.index = 1 := by
    have hmap : (new.partList.map Part.index)[1]? = some p.index := by
      rw [List.getElem?_map, hp]
      rfl
    rw [hindexes, hs] at hmap
    exact (Option.some.inj hmap).symm
  have hid : s.submission.id = 1 := by rw [hs]; rfl
  rw [hid] at hget
  refine ⟨started, s, _, saved, new, hstart, hsave, hget, p, List.mem_of_getElem? hp,
    hshown.mpr hindex, hstatus, ?_⟩
  exact hkept.resolve_right fun hdrafted => by cases hdrafted.1

/-- Where they are counted from one, the flag that rejects part 2 rejects the part that is displayed
as part 3, and the part that is displayed as part 2 is approved. -/
theorem part_flags_miss_from_one :
    ∃ started s given saved new,
      (start ReviewPlan.twoFlags).run.run (.atTwoFrom 1) = (.ok (Text.ofInt 1), started) ∧
      GivenSave .twoFlags started (Text.ofInt 1) s given saved ∧
      PartFlag.lastFor? ReviewPlan.twoFlags.request.parts 2 = some ⟨1, .rejected, "blurry"⟩ ∧
      (run .twoFlags (.atTwoFrom 1)).1.desk.store.get 1 = .ok new ∧
      new.partList.map (fun p => Problem.partNumber p.index) = [2, 3] ∧
      new.partList.map Part.status = [.approved, .rejected] := by
  obtain ⟨started, s, saved, hstart, hs, hmode, hsave⟩ := twoFlags_saved (.inr rfl)
  obtain ⟨form, old, new, result, hform, -, hlanded, -⟩ := hsave.landed
    (Store.twoFrom_sound (.inr rfl)) (fun _ => Timestamp.isKept_zero) hstart
  have hstored : (run .twoFlags (.atTwoFrom 1)).1.desk.store.get s.submission.id = .ok new :=
    hlanded.stored
  have hid : s.submission.id = 1 := by rw [hs]; rfl
  rw [hid] at hstored
  have hindexes : new.partList.map Part.index = [1, 2] := by
    rw [hlanded.indexes]
    show s.submission.partList.map Part.index = _
    rw [hs]
    rfl
  refine ⟨started, s, _, saved, new, hstart, hsave, PartFlag.lastFor?_twoFlags.2,
    hstored, ?_, hlanded.statuses hmode⟩
  show new.partList.map (Problem.partNumber ∘ Part.index) = [2, 3]
  rw [← List.map_map, hindexes]
  decide

end ReviewQueue
