import ReviewQueue.Proofs.Server.Update
import ReviewQueue.Server.Running

/-!
# How a request is routed

A read or a write is redirected, answered with the report, refused for its path or method, or
answered by the resource that its path names. `Server.answer_cases` lists these cases; which one it
is depends on the target and the method alone.

* `answer_of_not_clean` — a target that is not clean is redirected, and nothing else happens;
* `answer_resource` — a clean target that names a resource is answered by it;
* `put_ok_cases` — a write that is answered as done was an update of a submission;
* `answer_get_store` — a read leaves the store as it is;
* `report_not_decoded` — the report is no JSON text.
-/

namespace ReviewQueue

open Http

/-- A target with a path that is not redirected. -/
def Http.Target.IsClean (target : String) : Prop := clean (path target) = path target

instance (target : String) : Decidable (Target.IsClean target) :=
  inferInstanceAs (Decidable (_ = _))

namespace Server

/-- What the path of a clean target names. -/
def resource? (target : String) : Option Resource :=
  Resource.ofSegments? (Target.segments (Target.path target))

/-- The target of the report. -/
def IsReport (target : String) : Prop :=
  Target.segments (Target.path target) = [Resource.segment "metrics"]

theorem resource?_of_isReport {target : String} (h : IsReport target) :
    resource? target = none := by
  rw [resource?, h]
  rfl

/-- The methods of a client that reads and writes. -/
def IsCall (method : String) : Prop := method = "GET" ∨ method = "PUT"

theorem IsCall.not_empty {method : String} (h : IsCall method) :
    method ≠ "" ∧ method ≠ "OPTIONS" := by
  rcases h with h | h <;> rw [h] <;> decide

theorem routedPath_of_ne {request : Request} (h : request.method ≠ "CONNECT") :
    routedPath request = Target.clean (Target.path request.target) := if_neg h

/-- A call is routed at the clean path. -/
theorem IsCall.routedPath {request : Request} (h : IsCall request.method) :
    routedPath request = Target.clean (Target.path request.target) := by
  refine routedPath_of_ne ?_
  rcases h with h | h <;> rw [h] <;> decide

section Answer

variable (service : Service) (now : Timestamp) (request : Request)

/-- With a method that is stated, the target decides between the report and the interface. -/
theorem answer_of_isCall (h : IsCall request.method) :
    answer service now request =
      if !service.reportsCounters then answerInterface service now request
      else if Target.clean (Target.path request.target) ≠ Target.path request.target then
        (service, redirect request (Target.clean (Target.path request.target)))
      else if Target.segments (Target.path request.target) = [Resource.segment "metrics"] then
        (service, reportResponse service.counters)
      else answerInterface service now request := by
  have hsame : { request with
      method := if request.method = "" then "GET" else request.method } = request := by
    rw [if_neg h.not_empty.1]
  rw [answer]
  simp only [hsame, h.routedPath]

theorem answerInterface_of_isCall (h : IsCall request.method) :
    answerInterface service now request =
      ((answerRouted service now request).1,
        { (answerRouted service now request).2 with crossOrigin := true }) := by
  rw [answerInterface, if_neg h.not_empty.2]

/-- A target that is not clean is redirected, and nothing else happens. -/
theorem answer_of_not_clean (h : IsCall request.method) (hclean : ¬ Target.IsClean request.target) :
    ∃ counters response, answer service now request = ({ service with counters }, response) ∧
      response.status = 307 ∧
      response.location =
        (redirect request (Target.clean (Target.path request.target))).location := by
  have hne : Target.clean (Target.path request.target) ≠ Target.path request.target := hclean
  rw [answer_of_isCall service now request h]
  split
  · rw [answerInterface_of_isCall service now request h, answerRouted]
    simp only [h.routedPath, if_pos hne]
    exact ⟨_, _, rfl, rfl, rfl⟩
  · exact ⟨service.counters, _, rfl, rfl, rfl⟩

/-- What happens to a request with a clean target. -/
inductive Answered (service : Service) (now : Timestamp) (request : Request) :
    Service × Response → Prop
  | report : service.reportsCounters = true → IsReport request.target →
      Answered service now request (service, reportResponse service.counters)
  | missing (counters) : resource? request.target = none →
      Answered service now request
        ({ service with counters },
          { plain 404 "404 page not found\n" with crossOrigin := true })
  | refused (counters allow) {r} : resource? request.target = some r →
      request.method ∉ r.methods →
      Answered service now request
        ({ service with counters },
          { plain 405 "Method Not Allowed\n" with allow, crossOrigin := true })
  | resource (counters) {r} : resource? request.target = some r → request.method ∈ r.methods →
      Answered service now request
        ({ (answerResource service now request r).1 with counters },
          { (answerResource service now request r).2 with crossOrigin := true })

theorem answerInterface_cases (h : IsCall request.method) (hclean : Target.IsClean request.target) :
    Answered service now request (answerInterface service now request) := by
  have hsame : Target.clean (Target.path request.target) = Target.path request.target := hclean
  rw [answerInterface_of_isCall service now request h, answerRouted]
  simp only [h.routedPath, hsame, ne_eq, not_true_eq_false, if_false]
  cases hresource : resource? request.target with
  | none =>
      rw [resource?] at hresource
      simp only [hresource]
      exact .missing _ hresource
  | some r =>
      have hr := hresource
      rw [resource?] at hresource
      simp only [hresource]
      split
      · rename_i hmethod
        exact .resource _ hr (List.contains_iff_mem.mp hmethod)
      · rename_i hmethod
        exact .refused _ _ hr (fun hmem => hmethod (List.contains_iff_mem.mpr hmem))

theorem answer_cases (h : IsCall request.method) (hclean : Target.IsClean request.target) :
    Answered service now request (answer service now request) := by
  have hsame : Target.clean (Target.path request.target) = Target.path request.target := hclean
  rw [answer_of_isCall service now request h]
  split
  · exact answerInterface_cases service now request h hclean
  · rename_i hreports
    rw [if_neg (by simp [hsame])]
    split
    · rename_i hreport
      exact .report (by simpa using hreports) hreport
    · exact answerInterface_cases service now request h hclean

/-- A clean target that names a resource is answered by it. -/
theorem answer_resource (h : IsCall request.method) (hclean : Target.IsClean request.target)
    {r : Resource} (hr : resource? request.target = some r) (hmethod : request.method ∈ r.methods) :
    ∃ counters, answer service now request =
      ({ (answerResource service now request r).1 with counters },
        { (answerResource service now request r).2 with crossOrigin := true }) := by
  have hcases := answer_cases service now request h hclean
  generalize answer service now request = result at hcases
  cases hcases with
  | report _ hreport =>
      rw [resource?_of_isReport hreport] at hr
      cases hr
  | missing counters hnone =>
      rw [hnone] at hr
      cases hr
  | refused counters allow hother hnot =>
      rw [hr] at hother
      cases hother
      exact absurd hmethod hnot
  | resource counters hother =>
      rw [hr] at hother
      cases hother
      exact ⟨counters, rfl⟩

/-! ## What the answers have in common -/

theorem readId_location {segment : List UInt8} {r : Response} (h : readId segment = .error r) :
    r.location = none := by
  unfold readId at h
  split at h
  · split at h
    · cases h
    · cases h
      rfl
  · cases h
    rfl

theorem answerReview_location (segment : List UInt8) (body : String) :
    (answerReview service now segment body).2.location = none := by
  unfold answerReview
  split
  · exact readId_location ‹_›
  · split
    · rfl
    · split
      · rfl
      · split
        · rfl
        · split <;> rfl

theorem answerResource_location (r : Resource) :
    (answerResource service now request r).2.location = none := by
  cases r with
  | batch project batch =>
      simp only [answerResource, answerList]
      split
      · rfl
      · split <;> rfl
  | statuses => rfl
  | attachments segment =>
      simp only [answerResource, answerAttachments]
      split
      · exact readId_location ‹_›
      · split
        · rfl
        · split <;> rfl
  | submission segment =>
      simp only [answerResource, answerGet]
      split
      · exact answerReview_location service now segment request.body
      · split
        · exact readId_location ‹_›
        · split <;> rfl

/-- What is answered at a clean target is no redirect. -/
theorem answer_location (h : IsCall request.method) (hclean : Target.IsClean request.target) :
    (answer service now request).2.location = none := by
  have hcases := answer_cases service now request h hclean
  generalize answer service now request = result at hcases
  cases hcases with
  | report => rfl
  | missing => rfl
  | refused => rfl
  | resource => exact answerResource_location service now request _

/-- A read leaves the store as it is. -/
theorem answer_get_store (h : request.method = "GET") :
    (answer service now request).1.store = service.store := by
  by_cases hclean : Target.IsClean request.target
  · have hcases := answer_cases service now request (.inl h) hclean
    generalize answer service now request = result at hcases
    cases hcases with
    | report => rfl
    | missing => rfl
    | refused => rfl
    | @resource counters r =>
        cases r with
        | submission segment => simp [answerResource, h]
        | _ => rfl
  · obtain ⟨counters, response, heq, -⟩ :=
      answer_of_not_clean service now request (.inl h) hclean
    rw [heq]

/-- A write that is answered as done was an update of a submission, unless it went to the
report. -/
theorem put_ok_cases (h : request.method = "PUT") (hclean : Target.IsClean request.target)
    (hok : 200 ≤ (answer service now request).2.status ∧
      (answer service now request).2.status ≤ 299) :
    IsReport request.target ∨
      ∃ segment, resource? request.target = some (.submission segment) ∧
        (answer service now request).1.store =
          (answerReview service now segment request.body).1.store ∧
        (answer service now request).2.status =
          (answerReview service now segment request.body).2.status ∧
        (answer service now request).2.body =
          (answerReview service now segment request.body).2.body := by
  have hcases := answer_cases service now request (.inr h) hclean
  generalize answer service now request = result at hcases hok
  cases hcases with
  | report _ hreport => exact .inl hreport
  | missing => simp [plain] at hok
  | refused => simp [plain] at hok
  | @resource counters r hr hmethod =>
      rw [h] at hmethod
      cases r with
      | submission segment =>
          refine .inr ⟨segment, hr, ?_⟩
          simp [answerResource, h]
      | batch | attachments | statuses =>
          revert hmethod
          simp [Resource.methods]

end Answer

/-! ## The report -/

theorem head?_append {a : String} (b : String) {c : Char} (h : a.toList.head? = some c) :
    (a ++ b).toList.head? = some c := by
  rw [String.toList_append, List.head?_append, h]
  rfl

/-- A family with a line starts with a comment. -/
theorem family_head (name kind help line : String) (lines : List String) :
    (Counters.family name kind help (line :: lines)).toList.head? = some '#' := by
  have hmark : "# HELP ".toList.head? = some '#' := by decide
  exact head?_append _ <| head?_append _ <| head?_append _ <| head?_append _ <|
    head?_append _ <| head?_append _ <| head?_append _ <| head?_append _ <| head?_append _ hmark

/-- A family without lines is absent. -/
theorem family_cases (name kind help : String) (lines : List String) :
    Counters.family name kind help lines = "" ∨
      (Counters.family name kind help lines).toList.head? = some '#' := by
  cases lines with
  | nil => exact .inl rfl
  | cons line lines => exact .inr (family_head name kind help line lines)

/-- The report starts with a comment. -/
theorem report_head (c : Counters) : c.report.toList.head? = some '#' := by
  have hskip {a b : String} (ha : a = "" ∨ a.toList.head? = some '#')
      (hb : b.toList.head? = some '#') : (a ++ b).toList.head? = some '#' := by
    rcases ha with rfl | ha
    · rwa [String.empty_append]
    · exact head?_append b ha
  -- the third family always has its one line, and the first two may be absent
  unfold Counters.report
  rw [String.append_assoc, String.append_assoc]
  exact hskip (family_cases _ _ _ _) <| hskip (family_cases _ _ _ _) <|
    head?_append _ (family_head _ _ _ _ _)

/-- The report is no JSON text. -/
theorem report_not_decoded (c : Counters) (blank : α) (fill : Json.Filler α) :
    Json.decode? blank fill c.report.toList = none := by
  have hhead := report_head c
  cases htext : c.report.toList with
  | nil =>
      rw [htext] at hhead
      cases hhead
  | cons head rest =>
      rw [htext] at hhead
      obtain rfl := Option.some.inj hhead
      have hskip : Json.skipSpaces ('#' :: rest) = '#' :: rest := rfl
      have hnumber : Json.readNumber ('#' :: rest) = none := rfl
      have hvalue (fuel : Nat) : Json.readValue (fuel + 1) ('#' :: rest) = none := by
        simp [Json.readValue, hnumber]
      have hsplit : Json.splitFirst ('#' :: rest) = none := by
        simp only [Json.splitFirst, Json.readFirst, hskip, Json.fuelFor, hvalue, Option.filter_none,
          Option.map_none]
      rw [Json.decode?, Json.decodeFilled, Json.document?, hsplit]
      rfl

end Server
end ReviewQueue
