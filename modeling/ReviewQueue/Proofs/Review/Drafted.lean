import ReviewQueue.Proofs.Review.Room

/-!
# What a draft fills in

A draft has feedback by the indexes of parts, and a form has it by their positions. Filling goes
through the parts in order: it reads the values that the form had at the start, by position, and
writes verdict and feedback of a part together. `Session.drafting` is this loop with every read
checked, so that a position without a value is a fault of its own.

* `Session.Halfway.fillFrom_eq` — the loop fills as many parts as there are, and reads outside only
  when it has no room;
* `draft_fills_blanks` — what a draft makes of a session.
-/

namespace ReviewQueue

open Reviewer

/-! ## What a draft says -/

/-- What a draft says about the part with an index: its first feedback for the index, and nothing
when there is none. -/
inductive Draft.Says (d : Draft) (index : Int) : String → Prop
  | first {before after : List PartDraft} {entry : PartDraft}
      (split : d.parts.getD [] = before ++ entry :: after) (found : entry.index = index)
      (earlier : ∀ other ∈ before, other.index ≠ index) : Says d index entry.feedback
  | nothing (missing : ∀ entry ∈ d.parts.getD [], entry.index ≠ index) : Says d index ""

theorem Draft.says_partFeedback (d : Draft) (index : Int) :
    d.Says index (d.partFeedback index) := by
  unfold partFeedback
  cases hfind : (d.parts.getD []).find? (·.index == index) with
  | none =>
      refine .nothing fun entry hentry => ?_
      have hother := List.find?_eq_none.mp hfind entry hentry
      simpa using hother
  | some entry =>
      obtain ⟨hfound, before, after, hsplit, hearlier⟩ :=
        List.find?_eq_some_iff_append.mp hfind
      refine .first hsplit (by simpa using hfound) fun other hother => ?_
      have hne := hearlier other hother
      simpa using hne

/-! ## The loop -/

/-- Why drafting stops. -/
inductive DraftFault where
  | request (cause : DraftError)
  | part (cause : Session.NoPart)
  /-- There is no value at a position. -/
  | outside (position : Nat)
  deriving DecidableEq, Repr

namespace Session

/-- Fills the parts from a position on. The values are those that the form had at the start, and the
session is the one that was filled up to the position. -/
def fillFrom (d : Draft) (values : Form) : Nat → List Part → Session →
    Session × Except DraftFault Unit
  | _, [], s => (s, .ok ())
  | i, p :: parts, s =>
    match values.partsFeedback[i]? with
    | none => (s, .error (.outside i))
    | some feedback =>
      if Text.isBlankText feedback then
        match values.partsStatus[i]? with
        | none => (s, .error (.outside i))
        | some status =>
          match s.setPart i status (d.partFeedback p.index) with
          | .error e => (s, .error (.part e))
          | .ok s => fillFrom d values (i + 1) parts s
      else fillFrom d values (i + 1) parts s

/-- Has the missing feedback of a session drafted, step by step. The session that is left comes with
the result. -/
def drafting (drafter : Drafter) (s : Session) : Session × Except DraftFault Unit :=
  match Draft.request drafter s.submission s.form.status s.form.partsStatus with
  | .error e => (s, .error (.request e))
  | .ok d =>
    match s.mode with
    | .single => (if Text.isBlankText s.form.feedback then s.setFeedback d.feedback else s, .ok ())
    | .parts => fillFrom d s.form 0 s.submission.partList s

variable {s : Session} {d : Draft}

/-- A part is set at the position after those that were filled. -/
theorem setPart_at {filled rest : List String} {old new : String} {status : Status}
    (hmode : s.mode = .parts) (hstatus : s.form.partsStatus[filled.length]? = some status)
    (hfeedback : s.form.partsFeedback = filled ++ old :: rest) :
    s.setPart filled.length status new =
      .ok { s with form := { s.form with partsFeedback := filled ++ new :: rest } } := by
  obtain ⟨hlt, hget⟩ := List.getElem?_eq_some_iff.mp hstatus
  unfold setPart
  rw [if_pos ⟨hmode, by omega, by omega⟩, Int.toNat_natCast]
  -- the verdict that is written is the one that is there
  have hsame : s.form.partsStatus.set filled.length status = s.form.partsStatus := by
    rw [← hget, List.set_getElem_self]
  have hset : s.form.partsFeedback.set filled.length new = filled ++ new :: rest := by
    rw [hfeedback, List.set_append_right _ _ (Nat.le_refl _), Nat.sub_self, List.set_cons_zero]
  rw [hsame, hset]

/-- A session halfway through the loop. Up to the position it is filled, from there on it has the
values of the start, so that the loop never reads what it wrote. -/
structure Halfway (values : Form) (filled rest : List String) (s : Session) : Prop where
  mode : s.mode = .parts
  statuses : s.form.partsStatus = values.partsStatus
  even : values.partsFeedback.length = values.partsStatus.length
  length : values.partsFeedback.length = filled.length + rest.length
  ahead : values.partsFeedback.drop filled.length = rest
  feedbacks : s.form.partsFeedback = filled ++ rest

variable {values : Form} {filled rest : List String} {f : String}

theorem Halfway.next (h : Halfway values filled (f :: rest) s) (new : String) :
    Halfway values (filled ++ [new]) rest
      { s with form := { s.form with partsFeedback := filled ++ new :: rest } } where
  mode := h.mode
  statuses := h.statuses
  even := h.even
  length := by
    have hlength := h.length
    rw [List.length_cons] at hlength
    rw [List.length_append, List.length_singleton]
    omega
  ahead := by
    rw [List.length_append, List.length_singleton, ← List.tail_drop, h.ahead, List.tail_cons]
  feedbacks := (List.append_assoc filled [new] rest).symm

/-- One part is filled or kept, and then the rest. -/
theorem Halfway.fillFrom_cons (h : Halfway values filled (f :: rest) s) (d : Draft) (p : Part)
    (parts : List Part) :
    fillFrom d values filled.length (p :: parts) s =
      fillFrom d values (filled.length + 1) parts
        { s with form := { s.form with partsFeedback := filled ++
          (if Text.isBlankText f then d.partFeedback p.index else f) :: rest } } := by
  have hread : values.partsFeedback[filled.length]? = some f := by
    rw [← List.head?_drop, h.ahead, List.head?_cons]
  rw [fillFrom, hread]
  by_cases hblank : Text.isBlankText f = true
  · have hlt : filled.length < values.partsStatus.length := by
      have hlength := h.length
      rw [h.even, List.length_cons] at hlength
      omega
    have hstatus : values.partsStatus[filled.length]? = some values.partsStatus[filled.length] :=
      List.getElem?_eq_getElem hlt
    simp only [if_pos hblank, hstatus]
    rw [setPart_at h.mode (by rw [h.statuses]; exact hstatus) h.feedbacks]
  · simp only [if_neg hblank]
    rw [← h.feedbacks]

/-- The loop fills the parts that are left. With more parts than values it stops at the first
position without one. -/
theorem Halfway.fillFrom_eq (h : Halfway values filled rest s) (d : Draft) (parts : List Part) :
    (∀ new, fillParts d parts rest = some new →
      fillFrom d values filled.length parts s =
        ({ s with form := { s.form with partsFeedback := filled ++ new } }, .ok ())) ∧
    (fillParts d parts rest = none →
      (fillFrom d values filled.length parts s).2 =
        .error (.outside values.partsFeedback.length)) := by
  induction parts generalizing s filled rest with
  | nil =>
      refine ⟨fun new hnew => ?_, fun hnone => (nomatch hnone)⟩
      have hsame : s.form.partsFeedback = filled ++ new := Option.some.inj hnew ▸ h.feedbacks
      rw [fillFrom, ← hsame]
  | cons p parts ih =>
      cases rest with
      | nil =>
          -- there are parts left, and no values
          refine ⟨fun new hnew => (nomatch hnew), fun _ => ?_⟩
          have hlength : values.partsFeedback.length = filled.length := h.length
          rw [← hlength, fillFrom, List.getElem?_eq_none (Nat.le_refl _)]
      | cons f rest =>
          have hlonger (new : String) : (filled ++ [new]).length = filled.length + 1 := by simp
          rw [h.fillFrom_cons]
          obtain ⟨hsome, hnone⟩ :=
            ih (h.next (if Text.isBlankText f then d.partFeedback p.index else f))
          rw [hlonger] at hsome hnone
          refine ⟨fun new hnew => ?_, fun hnew => hnone (Option.map_eq_none_iff.mp hnew)⟩
          obtain ⟨more, hmore, rfl⟩ := Option.map_eq_some_iff.mp hnew
          rw [hsome more hmore, List.append_assoc]
          rfl

end Session

namespace Reviewer

theorem fillParts_eq_none_iff {d : Draft} {parts : List Part} {feedbacks : List String} :
    fillParts d parts feedbacks = none ↔ feedbacks.length < parts.length := by
  induction parts generalizing feedbacks with
  | nil => simp [fillParts]
  | cons p parts ih =>
      cases feedbacks with
      | nil => simp [fillParts]
      | cons f feedbacks =>
          rw [fillParts, Option.map_eq_none_iff, ih, List.length_cons, List.length_cons]
          omega

theorem getElem?_fillParts_of_part {d : Draft} {parts : List Part}
    {feedbacks filled : List String} (h : fillParts d parts feedbacks = some filled) {i : Nat}
    {p : Part} {f : String} (hpart : parts[i]? = some p) (hfeedback : feedbacks[i]? = some f) :
    filled[i]? = some (if Text.isBlankText f then d.partFeedback p.index else f) := by
  induction parts generalizing feedbacks filled i with
  | nil => cases hpart
  | cons q parts ih =>
      cases feedbacks with
      | nil => cases hfeedback
      | cons g feedbacks =>
          obtain ⟨rest, hrest, rfl⟩ := Option.map_eq_some_iff.mp h
          cases i with
          | succ i => exact ih hrest hpart hfeedback
          | zero =>
              obtain rfl := Option.some.inj hpart
              obtain rfl := Option.some.inj hfeedback
              rfl

/-- Feedback beyond the parts is left alone. -/
theorem getElem?_fillParts_of_le {d : Draft} {parts : List Part} {feedbacks filled : List String}
    (h : fillParts d parts feedbacks = some filled) {i : Nat} (hi : parts.length ≤ i) :
    filled[i]? = feedbacks[i]? := by
  induction parts generalizing feedbacks filled i with
  | nil => rw [Option.some.inj h]
  | cons q parts ih =>
      cases feedbacks with
      | nil => cases h
      | cons g feedbacks =>
          obtain ⟨rest, hrest, rfl⟩ := Option.map_eq_some_iff.mp h
          cases i with
          | zero => cases hi
          | succ i => exact ih hrest (Nat.le_of_succ_le_succ hi)

end Reviewer

namespace Session

variable {s t : Session} {d : Draft}

/-- A form is filled unless it has no room. -/
theorem fillForm_eq_none_iff : fillForm d s = none ↔ ¬ s.HasRoom := by
  unfold fillForm HasRoom
  split
  · rename_i hmode
    simp [hmode]
  · rename_i hmode
    rw [Option.map_eq_none_iff, fillParts_eq_none_iff]
    simp [hmode]

/-- Step by step, a session is filled with the draft that is made for it. -/
theorem drafting_eq (heven : s.Even) {drafter : Drafter}
    (hdraft : Draft.request drafter s.submission s.form.status s.form.partsStatus = .ok d) :
    (∀ t, fillForm d s = some t → drafting drafter s = (t, .ok ())) ∧
    (fillForm d s = none →
      (drafting drafter s).2 = .error (.outside s.form.partsFeedback.length)) := by
  rcases hmode : s.mode with _ | _
  · have hdrafting : fillForm d s = some (drafting drafter s).1 ∧
        (drafting drafter s).2 = .ok () := by
      simp only [fillForm, drafting, hdraft, hmode, and_self]
    obtain ⟨hform, hok⟩ := hdrafting
    refine ⟨fun t ht => Prod.ext (Option.some.inj (hform.symm.trans ht)) hok, fun hnone => ?_⟩
    cases hform.symm.trans hnone
  · have hdrafting : drafting drafter s = fillFrom d s.form 0 s.submission.partList s := by
      simp only [drafting, hdraft, hmode]
    have hlength : s.form.partsFeedback.length =
        ([] : List String).length + s.form.partsFeedback.length := by
      rw [List.length_nil, Nat.zero_add]
    have hstart : Halfway s.form [] s.form.partsFeedback s :=
      ⟨hmode, rfl, heven, hlength, rfl, rfl⟩
    obtain ⟨hsome, hnone⟩ := hstart.fillFrom_eq d s.submission.partList
    rw [hdrafting]
    constructor
    · intro t ht
      obtain ⟨hsingle, -⟩ | ⟨new, -, hnew, rfl⟩ := fillForm_eq_some ht
      · cases hmode.symm.trans hsingle
      · exact hsome new hnew
    · intro hform
      refine hnone ?_
      simp only [fillForm, hmode, Option.map_eq_none_iff] at hform
      exact hform

/-- Without a feedback for every part, drafting crashes at the first part that has none. -/
theorem drafting_of_not_hasRoom (heven : s.Even) {drafter : Drafter}
    (hdraft : Draft.request drafter s.submission s.form.status s.form.partsStatus = .ok d)
    (hroom : ¬ s.HasRoom) : draftMissing (some drafter) s = .error .crash ∧
      (s.drafting drafter).2 = .error (.outside s.form.partsFeedback.length) := by
  have hnone : fillForm d s = none := fillForm_eq_none_iff.mpr hroom
  refine ⟨?_, (drafting_eq heven hdraft).2 hnone⟩
  simp only [draftMissing, hdraft, hnone]

end Session

/-! ## What becomes of a session -/

/-- A feedback after a draft: one that was not blank is kept, and a blank one is as the draft says.
-/
def Completed (drafted : String → Prop) (before after : String) : Prop :=
  (Text.isBlankText before = false → after = before) ∧
    (Text.isBlankText before = true → drafted after)

theorem completed_ite {drafted : String → Prop} (before : String) {text : String}
    (h : drafted text) :
    Completed drafted before (if Text.isBlankText before then text else before) := by
  constructor
  · intro hkept
    rw [if_neg (by simp [hkept])]
  · intro hblank
    rw [if_pos hblank]
    exact h

/-- What a draft makes of a session: nothing but its form is changed, and no verdict in it. In
single mode the feedback is completed with the drafted one. In parts mode there is a feedback for
every part, before and after, and each is completed with what the draft says about the index of its
part; feedback beyond the parts stays. -/
structure Session.Filled (d : Draft) (s t : Session) : Prop where
  frame : FormOf s t
  status : t.form.status = s.form.status
  partsStatus : t.form.partsStatus = s.form.partsStatus
  single : s.mode = .single →
    Completed (· = d.feedback) s.form.feedback t.form.feedback ∧
      t.form.partsFeedback = s.form.partsFeedback
  parts : s.mode = .parts →
    t.form.feedback = s.form.feedback ∧
      t.form.partsFeedback.length = s.form.partsFeedback.length ∧
      (∀ (k : Nat) (p : Part), s.submission.partList[k]? = some p →
        ∃ before after, s.form.partsFeedback[k]? = some before ∧
          t.form.partsFeedback[k]? = some after ∧ Completed (d.Says p.index) before after) ∧
      ∀ k, s.submission.partList.length ≤ k → t.form.partsFeedback[k]? = s.form.partsFeedback[k]?

theorem Session.filled_of_fillForm {s t : Session} {d : Draft} (h : fillForm d s = some t) :
    s.Filled d t := by
  have hroom : s.HasRoom := by
    by_contra hnot
    rw [fillForm_eq_none_iff.mpr hnot] at h
    cases h
  obtain ⟨hmode, rfl⟩ | ⟨filled, hmode, hfilled, rfl⟩ := fillForm_eq_some h
  · refine ⟨⟨_, rfl⟩, rfl, rfl, fun _ => ⟨completed_ite _ rfl, rfl⟩, fun hparts => ?_⟩
    cases hmode.symm.trans hparts
  · refine ⟨⟨_, rfl⟩, rfl, rfl, fun hsingle => ?_, fun _ =>
      ⟨rfl, length_fillParts hfilled, fun k p hpart => ?_, fun k hk => ?_⟩⟩
    · cases hmode.symm.trans hsingle
    · -- there is a feedback wherever there is a part
      obtain ⟨hlt, -⟩ := List.getElem?_eq_some_iff.mp hpart
      have hbefore := List.getElem?_eq_getElem (Nat.lt_of_lt_of_le hlt (hroom hmode))
      exact ⟨_, _, hbefore, getElem?_fillParts_of_part hfilled hpart hbefore,
        completed_ite _ (d.says_partFeedback p.index)⟩
    · exact getElem?_fillParts_of_le hfilled hk

/-- **A draft fills in what is missing, and nothing else.** Let a session be in review, and let
feedback be drafted for it, whatever the model replies. When the call fails or the reply has no
draft, the session stays as it is. When the reply has a draft and there is a value for every part,
the session is filled with it: no verdict changes, feedback that is not blank is kept, and blank
feedback on a part becomes the first drafted feedback for the index of the part, or nothing if there
is none; in single mode it becomes the drafted feedback as a whole; and step by step, all values
that are read are there. There is a value for every part until a save has succeeded, and at the
review service after any saves as well. A session that was saved at a service which answers with
more parts than were loaded has none for the others, and drafting crashes at the first of them. -/
theorem draft_fills_blanks {s : Session} (h : s.InReview) (drafter : Drafter) :
    (∀ e, Draft.request drafter s.submission s.form.status s.form.partsStatus = .error e →
      draftMissing (some drafter) s = .error (.draft e) ∧
        s.drafting drafter = (s, .error (.request e))) ∧
    (∀ d, Draft.request drafter s.submission s.form.status s.form.partsStatus = .ok d →
      (s.HasRoom → ∃ t, draftMissing (some drafter) s = .ok t ∧ s.Filled d t ∧
        s.drafting drafter = (t, .ok ())) ∧
      (¬ s.HasRoom → draftMissing (some drafter) s = .error .crash ∧
        (s.drafting drafter).2 = .error (.outside s.form.partsFeedback.length))) ∧
    (s.Unsaved → s.HasRoom) ∧
    ∀ client store, s.AtService client store → s.HasRoom := by
  refine ⟨fun e hfailed => ?_, fun d hdraft => ⟨fun hroom => ?_, fun hroom => ?_⟩,
    fun hunsaved => hunsaved.fits.hasRoom, fun _ _ hservice => hservice.tracks.fits.hasRoom⟩
  · constructor
    · simp only [draftMissing, hfailed]
    · simp only [Session.drafting, hfailed]
  · obtain ⟨hfilling, -⟩ := Session.drafting_eq h.even hdraft
    obtain ⟨t, ht⟩ := Option.ne_none_iff_exists'.mp
      (mt (Session.fillForm_eq_none_iff (d := d)).mp (not_not_intro hroom))
    refine ⟨t, ?_, Session.filled_of_fillForm ht, hfilling t ht⟩
    simp only [draftMissing, hdraft, ht]
  · exact Session.drafting_of_not_hasRoom h.even hdraft hroom

/-- A draft with two entries for one part. -/
def Draft.uneven : Draft where
  parts := some [⟨9, "a"⟩, ⟨9, "b"⟩, ⟨3, "c"⟩]

/-- The reply with this draft. -/
def Draft.unevenReply : Http.Reply :=
  .answered
    { status := 200
      body := "\x7b\"content\":[\x7b\"type\":\"text\",\"text\":\"\x7b\\\"parts\\\":[" ++
        "\x7b\\\"index\\\":9,\\\"feedback\\\":\\\"a\\\"\x7d," ++
        "\x7b\\\"index\\\":9,\\\"feedback\\\":\\\"b\\\"\x7d," ++
        "\x7b\\\"index\\\":3,\\\"feedback\\\":\\\"c\\\"\x7d]\x7d\"\x7d]\x7d" }

/-- Whoever drafts this for every submission. -/
def Drafter.uneven : Drafter := fun _ _ => Draft.unevenReply

theorem Drafter.request_uneven (s : Submission) (status : Status) (verdicts : List Status) :
    Draft.request Drafter.uneven s status verdicts = .ok Draft.uneven := by
  show Draft.ofAnswer Draft.unevenReply = .ok Draft.uneven
  decide +kernel

/-- The parameters of a review of submission 1. -/
def SessionParams.first : SessionParams :=
  { projectId := "p", batchId := "b", submissionId := "1" }

theorem Session.paths_first : Session.Paths.of .first = .ok ⟨"/api/v1/submissions/1",
    "/api/v1/projects/p/batches/b/submissions", "/api/v1/submissions/1/attachments"⟩ := by
  decide +kernel

/-- A submission whose parts have the indexes 9, 3 and 7, of which one has feedback. -/
def Submission.sparse : Submission where
  id := 1
  parts := some [{ index := 9 }, { index := 3, feedback := "kept" }, { index := 7 }]

/-- The text of this submission. -/
def Submission.sparseText : String :=
  "\x7b\"id\":1,\"parts\":[\x7b\"index\":9\x7d," ++
    "\x7b\"index\":3,\"feedback\":\"kept\"\x7d,\x7b\"index\":7\x7d]\x7d"

/-- Of the parts 3, 7 and 9 the first one has feedback. The draft has nothing on the second one, and
its first entry counts for the last one. -/
theorem draft_fills_sparse_parts :
    ∃ s t : Session, s.InReview ∧ s.submission.partList.map Part.index = [3, 7, 9] ∧
      s.form.partsFeedback = ["kept", " ", ""] ∧
      draftMissing (some Drafter.uneven) s = .ok t ∧ s.Filled .uneven t ∧
      t.form.partsFeedback = ["kept", "", "a"] := by
  let d : Desk Pages := { remote := ⟨[("/api/v1/submissions/1", Submission.sparseText)]⟩ }
  have hfetch : (Remote.fetch d.remote "/api/v1/submissions/1").2 =
      .ok (some Submission.sparseText) := rfl
  have hloaded : Json.decode? {} Submission.fill Submission.sparseText.toList =
      some Submission.sparse := by
    decide +kernel
  have hsorted : Submission.sparse.parts.map Part.sort =
      some [{ index := 3, feedback := "kept" }, { index := 7 }, { index := 9 }] := by
    refine congrArg some ((Part.sort_eq_of_perm ?_ ?_).trans (Part.sort_of_sorted ?_)) <;> decide
  have hfilling : fillParts Draft.uneven
      [{ index := 3, feedback := "kept" }, { index := 7 }, { index := 9 }] ["kept", " ", ""] =
        some ["kept", "", "a"] := by
    decide +kernel
  obtain ⟨_, siblings, error, hmount⟩ := Session.mount_of_fetched Session.paths_first hfetch hloaded
  rw [hsorted] at hmount
  -- the second feedback is set to a blank
  have hreview := (Session.InReview.loaded hmount).handled (.edited (.part 1 .pendingReview " "))
  have hunsaved := (Session.Unsaved.loaded hmount).handled (.edited (.part 1 .pendingReview " "))
  obtain ⟨-, hfills, hroom, -⟩ := draft_fills_blanks hreview Drafter.uneven
  obtain ⟨t, ht, hfilled, -⟩ :=
    (hfills Draft.uneven (Drafter.request_uneven _ _ _)).1 (hroom hunsaved)
  refine ⟨_, t, hreview, rfl, rfl, ht, hfilled, ?_⟩
  obtain ⟨drafted, hdraft, hform⟩ := draftMissing_some_eq_ok ht
  rw [Drafter.request_uneven] at hdraft
  obtain rfl := Except.ok.inj hdraft
  obtain ⟨hsingle, -⟩ | ⟨filled, -, hfills, rfl⟩ := fillForm_eq_some hform
  · cases hsingle
  · exact Option.some.inj (hfills.symm.trans hfilling)

/-! ## A saved session without room -/

/-- A service that answers a write with one part more than it showed. -/
structure Growing where

/-- The submission that it shows. -/
def Growing.shown : String := "\x7b\"id\":1,\"parts\":[\x7b\"index\":1\x7d]\x7d"

/-- Its answer to a write. -/
def Growing.grown : String :=
  "\x7b\"id\":1,\"parts\":[\x7b\"index\":1\x7d,\x7b\"index\":2\x7d]\x7d"

instance : Remote Growing where
  fetch w path :=
    (w, if path = "/api/v1/submissions/1" then .ok (some Growing.shown)
      else .error (.other "no such page"))
  send w _ _ _ := (w, .ok (some Growing.grown))
  now _ := .zero

/-- A session is loaded there, and its part is approved. -/
theorem Growing.exists_approved : ∃ s : Session, s.InReview ∧ s.mode = .parts ∧
    s.readOnly = false ∧ s.form = { partsStatus := [.approved], partsFeedback := [""] } := by
  let d : Desk Growing := { remote := {} }
  have hfetch : (Remote.fetch d.remote "/api/v1/submissions/1").2 = .ok (some shown) := rfl
  have hloaded : Json.decode? {} Submission.fill shown.toList =
      some { id := 1, parts := some [{ index := 1 }] } := by
    decide +kernel
  obtain ⟨_, siblings, error, hmount⟩ := Session.mount_of_fetched Session.paths_first hfetch hloaded
  have hreview := (Session.InReview.loaded hmount).handled (.edited (.part 0 .approved ""))
  rw [Option.map_some, Part.sort_of_sorted (List.pairwise_singleton _ _)] at hreview
  exact ⟨_, hreview, rfl, rfl, rfl⟩

theorem Growing.saved?_grown : Coordinator.saved? (some grown) =
    some { id := 1, parts := some [{ index := 1 }, { index := 2 }] } := by
  have hgrown : Json.decode? {} Submission.fill grown.toList =
      some { id := 1, parts := some [{ index := 1 }, { index := 2 }] } := by
    decide +kernel
  simp only [Coordinator.saved?, bind, Option.bind, hgrown, pure]
  rw [Option.map_some, Part.sort_of_sorted (by decide)]

/-- A session that is approved and saved there has feedback for one part, and shows two. When
feedback is drafted for it, the values are read outside. -/
theorem draft_outside_once_saved :
    ∃ s : Session, s.InReview ∧ s.submission.partList.map Part.index = [1, 2] ∧
      s.form.partsFeedback = [""] ∧ draftMissing (some Drafter.uneven) s = .error .crash ∧
      (s.drafting Drafter.uneven).2 = .error (.outside 1) := by
  obtain ⟨s, hreview, hmode, hreadOnly, hform⟩ := Growing.exists_approved
  let d : Desk Growing := { remote := {} }
  have hopen : ¬ s.Shut {} := by
    unfold Session.Shut
    rw [hform, hmode, hreadOnly]
    decide
  have hput : s.put d = (d.remote, .ok (some Growing.grown)) := rfl
  obtain ⟨hwritten, hok⟩ := Session.submit_of_written hopen hput
  -- the answer to the write is shown from then on, and the form stays
  let saved : Session :=
    { s with submission := { id := 1, parts := some [{ index := 1 }, { index := 2 }] } }
  have hsaved : saved.InReview := by
    have hsession : (s.submit {} d).session = saved := by
      rw [hwritten.session, Growing.saved?_grown]
    exact hsession ▸ hreview.saved hok
  have hfeedback : saved.form.partsFeedback = [""] := congrArg Form.partsFeedback hform
  have hroom : ¬ saved.HasRoom := by
    intro hroom
    have hlength : 2 ≤ saved.form.partsFeedback.length := hroom hmode
    rw [hfeedback] at hlength
    exact absurd hlength (by decide)
  obtain ⟨hcrash, houtside⟩ :=
    Session.drafting_of_not_hasRoom hsaved.even (Drafter.request_uneven _ _ _) hroom
  rw [hfeedback] at houtside
  exact ⟨saved, hsaved, rfl, hfeedback, hcrash, houtside⟩

end ReviewQueue
