import ReviewQueue.Proofs.Domain.Codec
import ReviewQueue.Proofs.Number.Binary64
import ReviewQueue.Proofs.Remote.Update
import ReviewQueue.Proofs.Review.Request
import ReviewQueue.Proofs.Route.Endpoint

/-!
# One review, called as a tool or sent to the service

The same verdict can be given to the review tool, as arguments, or sent to the service, as a body.
Both are judged and written alike, with two exceptions. A call with a list of part verdicts drops
the verdict on the whole, also when the list is empty; the service drops it only for a list with
part verdicts in it. And a number in the arguments of a call is a floating-point number.

* `Tools.verdict?_reviewArgs` — what a call makes of a verdict, `Verdict.called`;
* `Problem.find_called`, `Store.reviewed_called` — a verdict is judged and written as it is called;
* `called_and_sent_alike` — the call and the request end alike.
-/

namespace ReviewQueue

open Http Server

/-! ## A verdict as a body -/

/-- A list of part verdicts is decoded from its JSON form. -/
theorem PartVerdict.prints_all {ps : List PartVerdict} (hps : ∀ p ∈ ps, p.Portable) :
    Json.Prints 2 (Json.fillList {} fill) none (Json.arrayText (ps.map json)) (some ps) := by
  have hlist :
      Json.Prints 2 (Json.fillList {} fill) none (Json.listText json (some ps)) (some ps) :=
    Json.prints_list (fun p hp => prints (hps p hp)) (by decide)
  exact hlist

namespace Verdict

/-- The JSON form with all members that are there, also those that say nothing. -/
def fullJson (v : Verdict) : List Char :=
  record
    [member "timeElapsed" (Json.intText v.timeElapsed),
     member "status" v.status.json,
     member "feedback" (Json.stringText v.feedback),
     presentMember "parts" (fun ps => Json.arrayText (ps.map PartVerdict.json)) v.parts]

theorem prints_full {v : Verdict} (hv : v.Portable) :
    Json.Prints 3 Verdict.fill {} v.fullJson v := by
  refine Json.Builds.prints (by decide) ?_ (by decide)
  refine .field (Json.prints_int hv.timeElapsed _) <| .field (Status.prints v.status _) <|
    .field (Json.prints_string v.feedback _) ?_
  cases hparts : v.parts with
  | none => exact .absent (hparts ▸ .nil)
  | some ps =>
      have hps := hv.parts
      rw [hparts] at hps
      exact .field (PartVerdict.prints_all hps) (hparts ▸ .nil)

/-- The request that sends a verdict on a submission. -/
def request (id : Int) (v : Verdict) : Request :=
  { method := "PUT", target := Endpoint.detailPath (Text.ofInt id), body := .ofList v.fullJson }

end Verdict

/-! ## A verdict as arguments -/

namespace Tools

/-- A value that stands for an integer among the arguments of a call: a number, which is exact up to
some size, or a numeral. -/
inductive Spells : Json → Int → Prop
  | number {n : Int} : n.natAbs ≤ Binary64.exactMax → Spells (.number (Text.numeral n)) n
  | numeral {n : Int} : fitsWord n = true → Spells (.string (Text.ofInt n)) n

theorem Spells.fits {j : Json} {n : Int} (h : Spells j n) : fitsWord n = true := by
  cases h with
  | number h =>
      unfold Binary64.exactMax at h
      unfold fitsWord wordMin wordMax
      simp
      omega
  | numeral h => exact h

theorem int?_of_spells {args : Args} {name : String} {j : Json} {n : Int}
    (harg : arg? args name = some j) (h : Spells j n) : int? args name = some n := by
  unfold int?
  rw [harg]
  cases h with
  | number h => exact Binary64.carried?_of_le h
  | numeral h => exact Text.toInt?_ofInt h

/-- The part verdicts among the arguments of a call: a JSON text. -/
def partsArg (ps : List PartVerdict) : Json :=
  .string (.ofList (Json.arrayText (ps.map PartVerdict.json)))

/-- The arguments of a call that brings a verdict. -/
def reviewArgs (id time : Json) (v : Verdict) : Args :=
  [("id", id), ("time_elapsed", time), ("status", .string v.status.label),
    ("feedback", .string v.feedback)] ++ (v.parts.map fun ps => ("parts", partsArg ps)).toList

section Args

variable (id time : Json) (v : Verdict)

theorem arg?_id : arg? (reviewArgs id time v) "id" = some id := by
  cases h : v.parts <;> simp [reviewArgs, h, arg?]

theorem arg?_time : arg? (reviewArgs id time v) "time_elapsed" = some time := by
  cases h : v.parts <;> simp [reviewArgs, h, arg?]

theorem text?_status : text? (reviewArgs id time v) "status" = some v.status.label := by
  cases h : v.parts <;> simp [reviewArgs, h, text?, arg?]

theorem text?_feedback : text? (reviewArgs id time v) "feedback" = some v.feedback := by
  cases h : v.parts <;> simp [reviewArgs, h, text?, arg?]

theorem arg?_parts : arg? (reviewArgs id time v) "parts" = v.parts.map partsArg := by
  cases h : v.parts <;> simp [reviewArgs, h, arg?]

end Args

end Tools

/-! ## What a call makes of a verdict -/

/-- A part verdict that names a submission. -/
def PartVerdict.addressed (id : Int) (p : PartVerdict) : PartVerdict := { p with submission := id }

namespace Verdict

/-- What is left of a verdict when it is given to the review tool: with a list of part verdicts,
whatever is in it, the verdict on the whole is dropped. -/
def called (id : Int) (v : Verdict) : Verdict :=
  match v.parts with
  | none => v
  | some ps => { timeElapsed := v.timeElapsed, parts := some (ps.map (PartVerdict.addressed id)) }

/-- A verdict whose labels are in upper case. -/
structure IsUpper (v : Verdict) : Prop where
  status : Text.upper v.status.label = v.status.label
  parts : ∀ p ∈ v.partList, Text.upper p.status.label = p.status.label

end Verdict

namespace Tools

theorem addressed_of_isUpper {id : Int} {p : PartVerdict}
    (h : Text.upper p.status.label = p.status.label) : addressed id p = p.addressed id := by
  unfold addressed
  rw [h]
  rfl

theorem text?_parts (id time : Json) (v : Verdict) :
    text? (reviewArgs id time v) "parts" =
      v.parts.map fun ps => .ofList (Json.arrayText (ps.map PartVerdict.json)) := by
  rw [text?, arg?_parts]
  cases v.parts <;> rfl

/-- **What a call makes of a verdict.** -/
theorem verdict?_reviewArgs {id time : Json} {v : Verdict} (n : Int) (hv : v.Portable)
    (hupper : v.IsUpper) (htime : Spells time v.timeElapsed) :
    verdict? n (reviewArgs id time v) = some (v.called n) := by
  have htimed : int? (reviewArgs id time v) "time_elapsed" = some v.timeElapsed :=
    int?_of_spells (arg?_time id time v) htime
  unfold verdict?
  rw [htimed, text?_status, text?_feedback, text?_parts, Option.getD_some, Option.getD_some,
    Option.getD_some, hupper.status]
  obtain ⟨timeElapsed, status, feedback, parts⟩ := v
  cases parts with
  | none => rfl
  | some ps =>
      have hprints := PartVerdict.prints_all (show ∀ p ∈ ps, p.Portable from hv.parts)
      have haddressed : ps.map (addressed n) = ps.map (PartVerdict.addressed n) :=
        List.map_congr_left fun p hp => addressed_of_isUpper (hupper.parts p hp)
      simp only [Option.map_some, Option.getD_some]
      split
      · -- the text of a list is not empty
        rename_i hempty
        exact absurd hempty hprints.reads.ofList_ne_empty
      · rw [String.toList_ofList, hprints.decode (by decide), Option.map_some, Option.map_some,
          haddressed]
        rfl

end Tools

/-! ## Judged and written as it is called -/

section Called

variable (id : Int) (v : Verdict)

theorem Verdict.called_timeElapsed : (v.called id).timeElapsed = v.timeElapsed := by
  unfold called
  split <;> rfl

theorem Verdict.called_partList :
    (v.called id).partList = v.partList.map (PartVerdict.addressed id) := by
  unfold called partList
  cases h : v.parts <;> simp [h]

theorem Verdict.called_hasParts : (v.called id).hasParts = v.hasParts := by
  unfold hasParts
  rw [called_partList]
  simp

/-- The verdict on the whole stays when there is no list of part verdicts. -/
theorem Verdict.called_of_parts_none {v : Verdict} (h : v.parts = none) : v.called id = v := by
  unfold called
  rw [h]

theorem Verdict.hasParts_of_parts {v : Verdict} (hsome : v.parts ≠ none)
    (hne : v.parts ≠ some []) : v.hasParts = true := by
  unfold hasParts partList
  cases h : v.parts with
  | none => exact absurd h hsome
  | some ps =>
      cases ps with
      | nil => exact absurd h hne
      | cons p ps => rfl

variable {v}

/-- A verdict is judged as it is called, unless it drops the verdict on the whole of a submission
that has no parts. -/
theorem Problem.find_called {s : Submission} (h : v.parts = some [] → s.hasParts = true) :
    Problem.find s (v.called id) = Problem.find s v := by
  unfold find
  rw [v.called_timeElapsed]
  congr 1
  by_cases hs : s.hasParts = true
  · rw [if_pos hs, if_pos hs, ofParts, ofParts, v.called_hasParts, v.called_partList,
      List.filterMap_map]
    rfl
  · rw [if_neg hs, if_neg hs, ofWhole, ofWhole, v.called_hasParts]
    by_cases hnone : v.parts = none
    · rw [Verdict.called_of_parts_none id hnone]
    · have hparts : v.hasParts = true := Verdict.hasParts_of_parts hnone (mt h hs)
      rw [if_pos hparts, if_pos hparts]

/-- No empty list of part verdicts is accepted by a submission with parts. -/
theorem Problem.parts_ne_empty {s : Submission} (hgood : Problem.find s v = [])
    (h : v.parts = some [] → s.hasParts = true) : v.parts ≠ some [] := by
  intro hparts
  have hjudged := ((Problem.find_eq_nil_iff s v).mp hgood).2
  rw [if_pos (h hparts)] at hjudged
  have hnone : v.hasParts = false := by simp [Verdict.hasParts, Verdict.partList, hparts]
  exact absurd hjudged.1 (by simp [hnone])

theorem PartVerdict.lastFor?_addressed (ps : List PartVerdict) (index : Int) :
    lastFor? (ps.map (addressed id)) index = (lastFor? ps index).map (addressed id) := by
  unfold lastFor?
  rw [List.filter_map, List.getLast?_map]
  rfl

theorem PartRow.decided_addressed (ps : List PartVerdict) :
    PartRow.decided id (ps.map (PartVerdict.addressed id)) = PartRow.decided id ps := by
  funext r
  unfold PartRow.decided
  rw [PartVerdict.lastFor?_addressed]
  cases PartVerdict.lastFor? ps r.index <;> rfl

theorem SubmissionRow.decided_called (hparts : v.hasParts = true) (status : Status)
    (now : Timestamp) : decided id status now (v.called id) = decided id status now v := by
  funext r
  unfold decided
  rw [v.called_hasParts, v.called_timeElapsed]
  simp only [hparts, true_or, if_true]

/-- A verdict is written as it is called, unless the list of part verdicts is empty. -/
theorem Store.reviewed_called (h : v.parts ≠ some []) (store : Store) (now : Timestamp) :
    store.reviewed now id (v.called id) = store.reviewed now id v := by
  by_cases hnone : v.parts = none
  · rw [Verdict.called_of_parts_none id hnone]
  · have hparts : v.hasParts = true := Verdict.hasParts_of_parts hnone h
    unfold reviewed
    simp only [v.called_hasParts, v.called_partList, PartRow.decided_addressed, hparts, if_true,
      SubmissionRow.decided_called id hparts]

end Called

/-! ## The call and the request -/

/-- The ways in which a call and a request end that bring one verdict. -/
inductive EndAlike (service : Service) (id : Int) (v : Verdict) :
    Store × Tools.Reply → Service × Response → Prop
  /-- Both are accepted. The stores that they leave differ in the time of the update only. -/
  | accepted {s shown shown' : Submission} {store : Store} {after : Service} :
      service.store.get id = .ok s → Problem.find s v = [] →
      store.undated id = after.store.undated id →
      store.get id = .ok shown → after.store.get id = .ok shown' →
      EndAlike service id v (store, .result (.ofJson shown.json?))
        (after, { jsonResponse 200 shown'.json? with crossOrigin := true })
  /-- Both are refused, with the messages of the same problems. -/
  | refused {s : Submission} {after : Service} :
      service.store.get id = .ok s → Problem.find s v ≠ [] → after.store = service.store →
      EndAlike service id v
        (service.store, .result (.failed ("review refused:\n- " ++
          "\n- ".intercalate ((Problem.find s v).map Problem.message))))
        (after, { refusal 400 ((Problem.find s v).map Problem.notice) with crossOrigin := true })
  /-- The submission could not be read. -/
  | unread {e : StoreError} {after : Service} :
      service.store.get id = .error e → after.store = service.store →
      EndAlike service id v (service.store, .result (.unread id e))
        (after, { storeFailure e with crossOrigin := true })

/-- What follows from what a review request asks for. -/
theorem VerdictRequest.answer_of_order {r : VerdictRequest} {o : VerdictOrder}
    (h : r.order = .ok o) (service : Service) (now : Moment) :
    r.answer service now =
      match service.store.get o.id with
      | .error e => (service.store, o.unread e)
      | .ok s =>
        if Problem.find s o.verdict = [] then
          (service.store.reviewed now o.id o.verdict, o.saved (s.reviewed now o.verdict))
        else (service.store, o.refused (Problem.find s o.verdict)) := by
  rw [answer_eq_judge_write]
  simp only [judge, h]
  cases hget : service.store.get o.id with
  | error e => rfl
  | ok s =>
      cases hfind : Problem.find s o.verdict with
      | cons p ps => simp [hfind]
      | nil => simpa [hfind] using Ticket.write_of_no_problem ⟨o, s⟩ now hget hfind

/-- The segment that names a submission in the path of a request. -/
def idSegment (id : Int) : List UInt8 := Text.toBytes (Text.ofInt id).toList

section Request

variable {service : Service} {id : Int} {v : Verdict}

theorem order_call {idArg timeArg : Json} (hid : Tools.Spells idArg id) (hv : v.Portable)
    (hupper : v.IsUpper) (htime : Tools.Spells timeArg v.timeElapsed) :
    (VerdictRequest.call (Tools.reviewArgs idArg timeArg v)).order =
      .ok ⟨false, id, v.called id⟩ := by
  have hint : Tools.int? (Tools.reviewArgs idArg timeArg v) "id" = some id :=
    Tools.int?_of_spells (Tools.arg?_id idArg timeArg v) hid
  simp only [VerdictRequest.order, hint, Tools.verdict?_reviewArgs id hv hupper htime]

theorem order_update (hpos : 0 < id) (hfits : fitsWord id = true) (hv : v.Portable) :
    (VerdictRequest.update (idSegment id) (v.request id).body).order =
      .ok ⟨true, id, v⟩ := by
  have hbody : Json.decodeFirst? {} Verdict.fill (v.request id).body.toList = some v := by
    rw [Verdict.request, String.toList_ofList]
    exact (Verdict.prints_full hv).decodeFirst (by decide)
  have hid : readId (idSegment id) = .ok id := readId_of_names (names_ofInt hpos hfits)
  simp only [VerdictRequest.order, hid, hbody]

variable (service id v) in
/-- A request with a verdict is answered as an update. -/
theorem answer_request (now : Timestamp) :
    ∃ after, answer service now (v.request id) =
        (after, { (answerReview service now (idSegment id) (v.request id).body).2 with
          crossOrigin := true }) ∧
      after.store = (answerReview service now (idSegment id) (v.request id).body).1.store := by
  have hnames := Endpoint.isName_detail (isName_ofInt id)
  have hclean : Target.IsClean (v.request id).target := by
    rw [Target.IsClean, Verdict.request, Endpoint.detailPath, Target.path_ofNames hnames]
    exact Target.isClean_ofNames (List.cons_ne_nil _ _) hnames
  have hresource : resource? (v.request id).target = some (.submission (idSegment id)) :=
    resource?_detail (isName_ofInt id)
  have hmethod : (v.request id).method ∈ (Resource.submission (idSegment id)).methods := by
    simp [Verdict.request, Resource.methods]
  have hreview : answerResource service now (v.request id) (.submission (idSegment id)) =
      answerReview service now (idSegment id) (v.request id).body := by
    simp [answerResource, Verdict.request]
  obtain ⟨counters, hanswer⟩ :=
    answer_resource service now (v.request id) (.inr rfl) hclean hresource hmethod
  rw [hreview] at hanswer
  exact ⟨_, hanswer, rfl⟩

/-- **A verdict that is called as a tool and one that is sent end alike**, unless it comes with an
empty list of part verdicts for a submission without parts. -/
theorem called_and_sent_alike {idArg timeArg : Json} (now now' : Moment) (hpos : 0 < id)
    (hid : Tools.Spells idArg id) (htime : Tools.Spells timeArg v.timeElapsed)
    (hportable : ∀ p ∈ v.partList, p.Portable) (hupper : v.IsUpper)
    (hempty : v.parts = some [] → ∀ s, service.store.get id = .ok s → s.hasParts = true) :
    EndAlike service id v
      (Tools.call service.store now "rq_review_submission" (Tools.reviewArgs idArg timeArg v))
      (answer service now' (v.request id)) := by
  have hv : v.Portable := ⟨htime.fits, hportable⟩
  obtain ⟨after, hanswer, hafter⟩ := answer_request service id v now'
  rw [hanswer, Tools.call]
  -- both are review requests, and what they ask for decides how they end
  have hcall := (VerdictRequest.call _).answer_of_order (order_call hid hv hupper htime)
    service now
  have hsend := (VerdictRequest.update _ _).answer_of_order (order_update hpos hid.fits hv)
    service now'
  simp only [VerdictRequest.answer] at hcall hsend
  generalize Tools.review service.store now (Tools.reviewArgs idArg timeArg v) = called at hcall ⊢
  generalize answerReview service now' (idSegment id) (v.request id).body = sent
    at hafter hsend ⊢
  obtain ⟨store, result⟩ := called
  obtain ⟨before, response⟩ := sent
  cases hget : service.store.get id with
  | error e =>
      rw [hget] at hcall hsend
      cases hcall
      obtain ⟨hstore, hresponse⟩ := Prod.mk.inj hsend
      cases hresponse
      exact .unread hget (hafter.trans hstore)
  | ok s =>
      have hfind : Problem.find s (v.called id) = Problem.find s v :=
        Problem.find_called id fun hnone => hempty hnone s hget
      simp only [hget, hfind] at hcall hsend
      by_cases hgood : Problem.find s v = []
      · rw [if_pos hgood] at hcall hsend
        cases hcall
        obtain ⟨hstore, hresponse⟩ := Prod.mk.inj hsend
        cases hresponse
        have hdone : after.store = service.store.reviewed now' id v := hafter.trans hstore
        have hnone : v.parts ≠ some [] :=
          Problem.parts_ne_empty hgood fun hnone => hempty hnone s hget
        refine .accepted hget hgood ?_ (Store.get_reviewed (v.called id) now hget)
          (hdone ▸ Store.get_reviewed v now' hget)
        rw [Store.reviewed_called id hnone, hdone]
        exact Store.undated_reviewed service.store now now' id v
      · rw [if_neg hgood] at hcall hsend
        cases hcall
        obtain ⟨hstore, hresponse⟩ := Prod.mk.inj hsend
        cases hresponse
        exact .refused hget hgood (hafter.trans hstore)

end Request

/-! ## A submission with a part, and one without -/

/-- A service with a submission of one part, and one that has no parts. -/
def Service.mixed : Service :=
  { store :=
      { lastId := 2
        submissions := [.ofSubmission { id := 1 }, .ofSubmission { id := 2 }]
        parts := [⟨1, 0, none, none⟩] } }

/-- An approval of the one part. -/
def Verdict.onPart : Verdict :=
  { timeElapsed := 30, parts := some [{ index := 0, status := .approved }] }

theorem onPart_called_and_sent :
    EndAlike .mixed 1 .onPart
        (Tools.call Service.mixed.store .zero "rq_review_submission"
          (Tools.reviewArgs (.number (Text.numeral 1)) (.number (Text.numeral 30)) .onPart))
        (answer .mixed .zero (Verdict.onPart.request 1)) ∧
      (answer .mixed .zero (Verdict.onPart.request 1)).1.store.parts =
        [⟨1, 0, some "APPROVED", none⟩] := by
  refine ⟨called_and_sent_alike .zero .zero (by decide) (.number (by decide))
    (.number (n := 30) (by decide)) ?_ ?_ ?_, by decide +kernel⟩
  · exact List.forall_mem_singleton.mpr ⟨by decide, by decide⟩
  · exact ⟨by decide +kernel, List.forall_mem_singleton.mpr (by decide +kernel)⟩
  · exact fun hnone => absurd hnone (by decide)

/-- An approval of the whole, with an empty list of part verdicts. -/
def Verdict.onWhole : Verdict := { status := .approved, parts := some [] }

/-- An approval after more seconds than a number of a call can count. -/
def Verdict.late : Verdict := { timeElapsed := 9007199254740993, status := .approved }

/-- A call drops the verdict on the whole for an empty list, and rounds a large number. -/
theorem called_and_sent_apart :
    (Tools.call Service.mixed.store .zero "rq_review_submission"
        (Tools.reviewArgs (.number (Text.numeral 2)) (.number (Text.numeral 0)) .onWhole) =
      (Service.mixed.store, .result (.failed
        "review refused:\n- status must be one of APPROVED, REJECTED, PENDING_REVIEW")) ∧
      (answer .mixed .zero (Verdict.onWhole.request 2)).2.status = 200 ∧
      (answer .mixed .zero (Verdict.onWhole.request 2)).1.store.submissions.map
        SubmissionRow.status = [none, some "APPROVED"]) ∧
    (Tools.call Service.mixed.store .zero "rq_review_submission"
        (Tools.reviewArgs (.number (Text.numeral 2)) (.number (Text.numeral 9007199254740993))
          .late)).1.submissions.map SubmissionRow.timeElapsed = [0, 9007199254740992] ∧
      (answer .mixed .zero (Verdict.late.request 2)).1.store.submissions.map
        SubmissionRow.timeElapsed = [0, 9007199254740993] := by
  have hrefused : Tools.review Service.mixed.store .zero
      (Tools.reviewArgs (.number (Text.numeral 2)) (.number (Text.numeral 0)) .onWhole) =
        (Service.mixed.store, .failed
          "review refused:\n- status must be one of APPROVED, REJECTED, PENDING_REVIEW") := by
    decide +kernel
  refine ⟨⟨?_, by decide +kernel, by decide +kernel⟩, by decide +kernel, by decide +kernel⟩
  rw [Tools.call, hrefused]

end ReviewQueue
