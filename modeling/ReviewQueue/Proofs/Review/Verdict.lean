import Mathlib.Data.List.Basic
import ReviewQueue.Proofs.Review.Flags
import ReviewQueue.Proofs.Text.Numeral

/-!
# Verdicts that are given beforehand

What a verdict on the command line says, and when it can be put into a form. Flags are put into it
one after the other, and a bad one stops that half-way; a form that comes out has all of them.

* `PartFlag.read_eq_ok_iff` — the texts that are flags, and what they say;
* `Reviewer.applyVerdict_eq_ok_iff` — the verdicts that fit a session, and its form with them;
* `ReviewRequest.verdict_form` — the update that this form makes.
-/

namespace ReviewQueue

/-! ## What a flag says -/

namespace PartFlag

theorem cut_cons_self (c : Char) (s : List Char) : cut c (c :: s) = ([], some s) := by
  simp [cut]

theorem cut_cons_of_ne {c a : Char} (h : a ≠ c) (s : List Char) :
    cut c (a :: s) = (a :: (cut c s).1, (cut c s).2) := by
  unfold cut
  rw [List.dropWhile_cons_of_pos (by simpa using h), List.takeWhile_cons_of_pos (by simpa using h)]
  cases s.dropWhile (· != c) <;> rfl

/-- A cut is made at the first `c`, and without one there is none. -/
theorem cut_eq_iff (c : Char) (s first : List Char) (rest : Option (List Char)) :
    cut c s = (first, rest) ↔ s = first ++ rest.elim [] (c :: ·) ∧ c ∉ first := by
  induction s generalizing first with
  | nil => cases first <;> cases rest <;> simp [cut]
  | cons a s ih =>
      by_cases ha : a = c
      · subst ha
        -- the cut is made here, so nothing stands in front of it
        rw [cut_cons_self]
        cases first with
        | nil => cases rest <;> simp
        | cons b first =>
            simp only [Prod.mk.injEq, reduceCtorEq, false_and, false_iff, List.cons_append,
              List.cons.injEq, not_and, not_not]
            exact fun h => h.1 ▸ List.mem_cons_self
      · -- the cut is made behind this character, if at all
        rw [cut_cons_of_ne ha]
        cases first with
        | nil => cases rest <;> simp [ha]
        | cons b first =>
            rw [Prod.mk.injEq, List.cons.injEq, and_assoc, ← Prod.mk.injEq, Prod.mk.eta, ih,
              List.cons_append, List.cons.injEq, List.mem_cons, not_or]
            constructor
            · rintro ⟨rfl, rfl, hnot⟩
              exact ⟨⟨rfl, rfl⟩, Ne.symm ha, hnot⟩
            · rintro ⟨⟨rfl, rfl⟩, -, hnot⟩
              exact ⟨rfl, rfl, hnot⟩

/-- A text that is cut at its first `=`, and behind that at the first `:` if there is one. What
stands behind these may have more of either. -/
inductive Layout : List Char → List Char → List Char → List Char → Prop
  | bare {number label : List Char} : '=' ∉ number → ':' ∉ label →
      Layout (number ++ '=' :: label) number label []
  | full {number label feedback : List Char} : '=' ∉ number → ':' ∉ label →
      Layout (number ++ '=' :: (label ++ ':' :: feedback)) number label feedback

/-- A text with a `=` has one layout, and it is what the cuts give. -/
theorem layout_iff (raw number label feedback : List Char) :
    Layout raw number label feedback ↔
      ∃ rest, cut '=' raw = (number, some rest) ∧
        (cut ':' rest).1 = label ∧ (cut ':' rest).2.getD [] = feedback := by
  constructor
  · rintro (⟨hnumber, hlabel⟩ | ⟨hnumber, hlabel⟩)
    · refine ⟨label, (cut_eq_iff _ _ _ _).mpr ⟨rfl, hnumber⟩, ?_⟩
      rw [(cut_eq_iff ':' label label none).mpr ⟨(List.append_nil _).symm, hlabel⟩]
      exact ⟨rfl, rfl⟩
    · refine ⟨_, (cut_eq_iff _ _ _ _).mpr ⟨rfl, hnumber⟩, ?_⟩
      have hcut : cut ':' (label ++ ':' :: feedback) = (label, some feedback) :=
        (cut_eq_iff _ _ _ _).mpr ⟨rfl, hlabel⟩
      rw [hcut]
      exact ⟨rfl, rfl⟩
  · rintro ⟨rest, hcut, rfl, rfl⟩
    obtain ⟨rfl, hnumber⟩ := (cut_eq_iff _ _ _ _).mp hcut
    rcases hrest : cut ':' rest with ⟨label, _ | feedback⟩
    · obtain ⟨rfl, hlabel⟩ := (cut_eq_iff _ _ _ _).mp hrest
      rw [Option.elim_none, List.append_nil]
      exact .bare hnumber hlabel
    · obtain ⟨rfl, hlabel⟩ := (cut_eq_iff _ _ _ _).mp hrest
      exact .full hnumber hlabel

theorem number?_eq_some_iff (s : List Char) (n : Int) :
    number? s = some n ↔ Text.IsPositiveNumeral (Text.trim s) n := by
  rw [← Text.readNumeral_pos_iff, number?]
  cases Text.readNumeral (Text.trim s) with
  | error e => simp
  | ok m =>
      simp only [Except.ok.injEq]
      split <;> simp <;> omega

/-- A verdict that is written in any case, with blanks around it. -/
def statusOf (label : List Char) : Status := ⟨Text.upper (.ofList (Text.trim label))⟩

/-- **The texts that are flags.** A part is numbered by a positive numeral, and the verdict on it is
a known one; the feedback is all that follows, without the blanks around it. -/
theorem read_eq_ok_iff (raw : String) (f : PartFlag) :
    read raw = .ok f ↔ ∃ number label feedback n, Layout raw.toList number label feedback ∧
      Text.IsPositiveNumeral (Text.trim number) n ∧ (statusOf label).isKnown = true ∧
      f = ⟨n - 1, statusOf label, .ofList (Text.trim feedback)⟩ := by
  simp only [layout_iff, ← number?_eq_some_iff]
  unfold read
  rcases cut '=' raw.toList with ⟨number, _ | rest⟩
  · simp
  · cases hnumber : number? number with
    | none =>
        simp only [hnumber, reduceCtorEq, false_iff]
        -- whatever the layout, it has the number that could not be read
        rintro ⟨_, _, _, n, ⟨_, hcut, -⟩, hn, -⟩
        obtain ⟨rfl, -⟩ := Prod.mk.inj hcut
        cases hnumber.symm.trans hn
    | some n =>
        simp only [hnumber]
        constructor
        · intro h
          split at h
          · rename_i hknown
            exact ⟨number, _, _, n, ⟨rest, rfl, rfl, rfl⟩, hnumber, hknown,
              (Except.ok.inj h).symm⟩
          · cases h
        · rintro ⟨_, _, _, m, ⟨_, hcut, rfl, rfl⟩, hm, hknown, rfl⟩
          obtain ⟨rfl, hrest⟩ := Prod.mk.inj hcut
          obtain rfl := Option.some.inj hrest
          obtain rfl := Option.some.inj (hnumber.symm.trans hm)
          exact if_pos hknown

/-- A flag for the verdicts on the parts before a position. -/
def IsBelow (count : Nat) (raw : String) : Prop :=
  ∃ f, read raw = .ok f ∧ f.position < count

instance (count : Nat) (raw : String) : Decidable (IsBelow count raw) :=
  match h : read raw with
  | .ok f => decidable_of_iff (f.position < count)
      ⟨fun hlt => ⟨f, h, hlt⟩, fun ⟨_, hf, hlt⟩ => Except.ok.inj (h.symm.trans hf) ▸ hlt⟩
  | .error _ => isFalse fun ⟨_, hf, _⟩ => nomatch h.symm.trans hf

/-- The verdict at a position with the flags: that of the last flag for it, or what was there. -/
def statusAt (raws : List String) (i : Nat) (status : Status) : Status :=
  ((lastFor? raws (i + 1)).map PartFlag.status).getD status

/-- The feedback at a position with the flags. -/
def feedbackAt (raws : List String) (i : Nat) (feedback : String) : String :=
  ((lastFor? raws (i + 1)).map PartFlag.feedback).getD feedback

variable {raw : String} {f : PartFlag} {i : Nat}

theorem statusAt_cons (hread : read raw = .ok f) (hposition : f.position = i)
    (rest : List String) (j : Nat) (status : Status) :
    statusAt (raw :: rest) j status = statusAt rest j (if i = j then f.status else status) := by
  unfold statusAt
  rw [lastFor?_cons hread, hposition]
  cases lastFor? rest (j + 1) with
  | some g => rfl
  | none => by_cases hj : i = j <;> simp [hj]

theorem feedbackAt_cons (hread : read raw = .ok f) (hposition : f.position = i)
    (rest : List String) (j : Nat) (feedback : String) :
    feedbackAt (raw :: rest) j feedback =
      feedbackAt rest j (if i = j then f.feedback else feedback) := by
  unfold feedbackAt
  rw [lastFor?_cons hread, hposition]
  cases lastFor? rest (j + 1) with
  | some g => rfl
  | none => by_cases hj : i = j <;> simp [hj]

end PartFlag

/-! ## From the flags to the form -/

/-- A form with flags put into it. -/
def Form.flagged (form : Form) (raws : List String) : Form :=
  { form with
    partsStatus := form.partsStatus.mapIdx (PartFlag.statusAt raws)
    partsFeedback := form.partsFeedback.mapIdx (PartFlag.feedbackAt raws) }

theorem Form.flagged_nil (form : Form) : form.flagged [] = form := by
  have hid {α : Type} (l : List α) : l.mapIdx (fun _ a => a) = l :=
    List.ext_getElem? fun i => by rw [List.getElem?_mapIdx, Option.map_id']
  show Form.mk _ _ (form.partsStatus.mapIdx fun _ st => st)
    (form.partsFeedback.mapIdx fun _ f => f) = form
  rw [hid, hid]

/-- The change at one index can be made first. -/
theorem mapIdx_eq_mapIdx_set {α : Type} {g h : Nat → α → α} {i : Nat} {a : α}
    (hg : ∀ j x, h j x = g j (if i = j then a else x)) (l : List α) :
    l.mapIdx h = (l.set i a).mapIdx g := by
  refine List.ext_getElem? fun j => ?_
  rw [List.getElem?_mapIdx, List.getElem?_mapIdx, List.getElem?_set]
  cases hj : l[j]? with
  | none =>
      have hlength := List.getElem?_eq_none_iff.mp hj
      by_cases hi : i = j
      · simp [hi, Nat.not_lt.mpr hlength]
      · simp [hi]
  | some x =>
      obtain ⟨hlt, -⟩ := List.getElem?_eq_some_iff.mp hj
      rw [Option.map_some, hg j x]
      by_cases hi : i = j
      · simp [hi, hlt]
      · simp [hi]

/-- The first flag is put into the form, and then the others. -/
theorem Form.flagged_cons {raw : String} {f : PartFlag} {i : Nat}
    (hread : PartFlag.read raw = .ok f) (hposition : f.position = i) (form : Form)
    (rest : List String) :
    form.flagged (raw :: rest) =
      Form.flagged { form with
        partsStatus := form.partsStatus.set i f.status
        partsFeedback := form.partsFeedback.set i f.feedback } rest := by
  have hstatuses := mapIdx_eq_mapIdx_set
    (PartFlag.statusAt_cons hread hposition rest) form.partsStatus
  have hfeedbacks := mapIdx_eq_mapIdx_set
    (PartFlag.feedbackAt_cons hread hposition rest) form.partsFeedback
  rw [flagged, hstatuses, hfeedbacks, flagged]

namespace ReviewRequest

/-- A verdict that is given beforehand fits a session: one on the whole fits a submission that is
reviewed as a whole, and one by parts a submission with parts, each of whose flags names one. -/
inductive Fits (request : ReviewRequest) (s : Session) : Prop
  | single (writable : s.readOnly = false) (mode : s.mode = .single)
      (whole : request.parts = [])
  | parts (writable : s.readOnly = false) (mode : s.mode = .parts) (parted : request.status = "")
      (below : ∀ raw ∈ request.parts, PartFlag.IsBelow s.form.partsStatus.length raw)

/-- The form of a session with the verdict that is given beforehand. -/
def form (request : ReviewRequest) (s : Session) : Form :=
  match s.mode with
  | .single =>
    { s.form with status := ⟨Text.upper request.status⟩, feedback := request.feedback }
  | .parts => s.form.flagged request.parts

end ReviewRequest

namespace Reviewer

variable {s given : Session}

/-- Flags in sequence are put into the form when all of them are for parts that are there. -/
theorem applyParts_eq_ok_iff {raws : List String} (hmode : s.mode = .parts) :
    applyParts s raws = .ok given ↔
      (∀ raw ∈ raws, PartFlag.IsBelow s.form.partsStatus.length raw) ∧
        given = { s with form := s.form.flagged raws } := by
  induction raws generalizing s with
  | nil =>
      rw [Form.flagged_nil, applyParts, Except.ok.injEq, eq_comm]
      simp
  | cons raw rest ih =>
      unfold applyParts
      cases hread : PartFlag.read raw with
      | error e =>
          simp only [reduceCtorEq, false_iff]
          rintro ⟨hbelow, -⟩
          obtain ⟨f, hf, -⟩ := hbelow raw List.mem_cons_self
          cases hread.symm.trans hf
      | ok f =>
          obtain ⟨i, hposition⟩ := Int.eq_ofNat_of_zero_le
            (show 0 ≤ f.position by have := (PartFlag.number_of_read hread).1; omega)
          -- the flag names a part when its position is one of the form
          have hbelow : PartFlag.IsBelow s.form.partsStatus.length raw ↔
              i < s.form.partsStatus.length := by
            simp [PartFlag.IsBelow, hread, hposition]
          simp only [List.forall_mem_cons, hbelow]
          by_cases hlt : i < s.form.partsStatus.length
          · have hset : s.setPart f.position f.status f.feedback = .ok { s with
                form := { s.form with
                  partsStatus := s.form.partsStatus.set i f.status
                  partsFeedback := s.form.partsFeedback.set i f.feedback } } := by
              rw [Session.setPart, if_pos ⟨hmode, by omega, by omega⟩, hposition]
              rfl
            have hrest := @ih { s with
              form := { s.form with
                partsStatus := s.form.partsStatus.set i f.status
                partsFeedback := s.form.partsFeedback.set i f.feedback } } hmode
            simp only [List.length_set] at hrest
            simp only [hset, hlt, true_and, Form.flagged_cons hread hposition]
            exact hrest
          · -- there is no part at the position, and the flags behind it are not looked at
            have hset : s.setPart f.position f.status f.feedback = .error ⟨f.position⟩ := by
              rw [Session.setPart, if_neg (by omega)]
            simp [hset, hlt]

/-- **When a verdict fits.** A verdict that is given beforehand can be put into the form exactly
when it fits the session, and then nothing but the form changes. -/
theorem applyVerdict_eq_ok_iff (request : ReviewRequest) (s given : Session) :
    applyVerdict request s = .ok given ↔
      request.Fits s ∧ given = { s with form := request.form s } := by
  by_cases hreadOnly : s.readOnly = true
  · rw [applyVerdict, if_pos hreadOnly]
    simp only [reduceCtorEq, false_iff]
    rintro ⟨hwritable | hwritable, -⟩ <;> cases hreadOnly.symm.trans hwritable
  have hwritable : s.readOnly = false := by simpa using hreadOnly
  rw [applyVerdict, if_neg hreadOnly]
  obtain hmode | hmode : s.mode = .single ∨ s.mode = .parts := by cases s.mode <;> simp
  · have hfits : request.Fits s ↔ request.parts = [] :=
      ⟨fun h => by cases h <;> simp_all, .single hwritable hmode⟩
    have hform : request.form s =
        { s.form with status := ⟨Text.upper request.status⟩, feedback := request.feedback } := by
      rw [ReviewRequest.form, hmode]
    rw [hfits, hform]
    split
    · rename_i hparts
      cases hmode.symm.trans hparts
    · cases request.parts <;> simp [Session.setStatus, Session.setFeedback, eq_comm]
  · have hfits : request.Fits s ↔ request.status = "" ∧
        ∀ raw ∈ request.parts, PartFlag.IsBelow s.form.partsStatus.length raw :=
      ⟨fun h => by cases h <;> simp_all, fun h => .parts hwritable hmode h.1 h.2⟩
    have hform : request.form s = s.form.flagged request.parts := by
      rw [ReviewRequest.form, hmode]
    rw [hfits, hform, and_assoc, ← applyParts_eq_ok_iff hmode]
    split
    · by_cases hstatus : request.status = "" <;> simp [hstatus]
    · rename_i hsingle
      cases hmode.symm.trans hsingle

end Reviewer

/-! ## The update -/

theorem Form.partVerdicts_mapIdx (id : Int) (parts : List Part) (seed : Part → Status)
    (text : Part → String) (status : Nat → Status → Status) (feedback : Nat → String → String) :
    partVerdicts id parts ((parts.map seed).mapIdx status) ((parts.map text).mapIdx feedback) =
      parts.mapIdx fun i p => ⟨id, p.index, status i (seed p), feedback i (text p)⟩ := by
  induction parts generalizing status feedback with
  | nil => rfl
  | cons p parts ih =>
      rw [List.map_cons, List.map_cons, List.mapIdx_cons, List.mapIdx_cons, List.mapIdx_cons,
        partVerdicts]
      exact congrArg _ (ih (fun i => status (i + 1)) fun i => feedback (i + 1))

namespace ReviewRequest

/-- The update with a verdict that is given beforehand. By parts, it has the verdict of the last
flag for each position, and where there is none that with which the form of the part starts. -/
def verdict (request : ReviewRequest) (s : Session) : Verdict :=
  match s.mode with
  | .single =>
    { timeElapsed := s.submission.timeElapsed
      status := ⟨Text.upper request.status⟩
      feedback := request.feedback }
  | .parts =>
    { timeElapsed := s.submission.timeElapsed
      parts := some (s.submission.partList.mapIdx fun i p =>
        { submission := s.submission.id
          index := p.index
          status := PartFlag.statusAt request.parts i (Form.seedStatus p)
          feedback := PartFlag.feedbackAt request.parts i p.feedback }) }

/-- The form of a session that was just loaded makes this update. -/
theorem verdict_form (request : ReviewRequest) {s : Session} (hmode : s.mode = Mode.of s.submission)
    (hform : s.form = Form.ofSubmission s.submission) :
    (request.form s).verdict s.mode s.submission = request.verdict s := by
  cases hparts : s.mode with
  | single => simp only [form, verdict, hparts, Form.verdict]
  | parts =>
      rw [Form.ofSubmission, ← hmode, hparts] at hform
      simp only [form, verdict, hparts, Form.verdict, hform, Form.flagged]
      rw [Form.partVerdicts_mapIdx]

end ReviewRequest
end ReviewQueue
