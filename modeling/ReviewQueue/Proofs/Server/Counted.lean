import Mathlib.Data.List.Basic
import ReviewQueue.Proofs.Server.Answer

/-!
# What the service counts

A service starts with no counts, and each request that it answers may change them. An `Exchange` is
a request with the service that meets it. What it is (a review that was saved, an update that was
refused for its problems) is read off the request and the answer, and not off the counts. A run of
requests gives a history of exchanges, and the counts at its end are the numbers of exchanges of
each kind: `counts_match_history`.

* `answerReview_updated` — an update is accepted, refused for its problems, or not judged at all;
* `answerRouted_routed` — of all other requests none is answered as a review or as a refusal is;
* `Exchange.tallied` — how one exchange changes the counts and the store.
-/

namespace ReviewQueue.Server

open Http

/-! ## Counts by key -/

namespace Tally

variable [DecidableEq κ] (key : κ) (t : Tally κ)

/-- The count of one key. -/
def countOf : Tally κ → Nat
  | [] => 0
  | (k, n) :: rest => if k = key then n else countOf rest

theorem total_bump : (t.bump key).total = t.total + 1 := by
  induction t with
  | nil => rfl
  | cons entry rest ih =>
      obtain ⟨k, n⟩ := entry
      have hcons (m : Nat) (r : Tally κ) : total ((k, m) :: r) = m + total r := rfl
      simp only [bump]
      split
      · rw [hcons, hcons]
        omega
      · rw [hcons, hcons, ih]
        omega

theorem countOf_bump (other : κ) :
    (t.bump key).countOf other = t.countOf other + if key = other then 1 else 0 := by
  induction t with
  | nil => simp [bump, countOf]
  | cons entry rest ih =>
      obtain ⟨k, n⟩ := entry
      simp only [bump]
      by_cases hk : k = key
      · subst hk
        rw [if_pos rfl]
        by_cases hother : k = other
        · simp [countOf, hother]
        · simp [countOf, hother]
      · rw [if_neg hk]
        by_cases hother : k = other
        · subst hother
          simp [countOf, Ne.symm hk]
        · simp only [countOf, if_neg hother]
          exact ih

theorem mem_bump {entry : κ × Nat} (h : entry ∈ t.bump key) :
    entry.1 = key ∨ ∃ n, (entry.1, n) ∈ t := by
  induction t with
  | nil =>
      rw [List.mem_singleton.mp h]
      exact .inl rfl
  | cons first rest ih =>
      obtain ⟨k, n⟩ := first
      simp only [bump] at h
      split at h
      · rcases List.mem_cons.mp h with rfl | hrest
        · exact .inl ‹_›
        · exact .inr ⟨entry.2, List.mem_cons_of_mem _ hrest⟩
      · rcases List.mem_cons.mp h with rfl | hrest
        · exact .inr ⟨n, List.mem_cons_self⟩
        · rcases ih hrest with heq | ⟨m, hm⟩
          · exact .inl heq
          · exact .inr ⟨m, List.mem_cons_of_mem _ hm⟩

end Tally

/-! ## An update and what it counts as -/

theorem ofParts_known (parts : List Part) : Status.ofParts parts ∈ Status.known := by
  unfold Status.ofParts
  split
  · decide
  · split
    · decide
    · split <;> decide

/-- An update with which nothing is wrong leads to a known status. -/
theorem reviewed_known {s : Submission} {v : Verdict} (now : Timestamp)
    (h : Problem.find s v = []) : (s.reviewed now v).status ∈ Status.known := by
  show (if v.hasParts then Status.ofParts _ else v.status) ∈ Status.known
  split
  · exact ofParts_known _
  · rename_i hparts
    have hjudged := ((Problem.find_eq_nil_iff s v).mp h).2
    split at hjudged
    · exact absurd hjudged.1 hparts
    · exact hjudged.2.1

/-- The problems with an update of the submission that a path segment names. An update that is not
judged has none. -/
def problemsWith (store : Store) (segment : List UInt8) (body : String) : List Problem :=
  match readId segment, Json.decodeFirst? {} Verdict.fill body.toList with
  | .ok id, some verdict =>
    match store.get id with
    | .ok s => Problem.find s verdict
    | .error _ => []
  | _, _ => []

/-- What comes of an update: the service after it, and the answer. -/
inductive Updated (service : Service) (now : Timestamp) (segment : List UInt8) (body : String) :
    Service × Response → Prop
  /-- Nothing is wrong: the update is written and counted under the status that it led to. -/
  | accepted {id v s} : readId segment = .ok id → service.store.get id = .ok s →
      Problem.find s v = [] → problemsWith service.store segment body = [] →
      Updated service now segment body
        ({ service with
            store := service.store.reviewed now id v
            counters := service.counters.accepted (s.reviewed now v).status },
          jsonResponse 200 (s.reviewed now v).json?)
  /-- There are problems, and the update is counted as refused. -/
  | refused : problemsWith service.store segment body ≠ [] →
      Updated service now segment body
        ({ service with counters := service.counters.refused },
          refusal 400 ((problemsWith service.store segment body).map Problem.notice))
  /-- The update could not be judged. -/
  | unjudged {response : Response} : problemsWith service.store segment body = [] →
      response.status ≠ 200 → Updated service now segment body (service, response)

theorem answerReview_updated (service : Service) (now : Moment) (segment : List UInt8)
    (body : String) :
    Updated service now segment body (answerReview service now segment body) := by
  obtain ⟨id, hid, -⟩ | ⟨r, hid, hstatus, -⟩ := readId_cases segment
  · cases hbody : Json.decodeFirst? {} Verdict.fill body.toList with
    | none =>
        simp only [answerReview, hid, hbody]
        exact .unjudged (by simp [problemsWith, hid, hbody]) (by decide)
    | some v =>
        cases hget : service.store.get id with
        | error e =>
            simp only [answerReview, hid, hbody, hget]
            refine .unjudged (by simp [problemsWith, hid, hbody, hget]) ?_
            rw [storeFailure_status]
            split <;> decide
        | ok s =>
            have hproblems : problemsWith service.store segment body = Problem.find s v := by
              simp only [problemsWith, hid, hbody, hget]
            cases hfind : Problem.find s v with
            | cons p ps =>
                simp only [answerReview, hid, hbody, hget, hfind]
                rw [hfind] at hproblems
                rw [← hproblems]
                exact .refused (by rw [hproblems]; simp)
            | nil =>
                have hreview := Store.review_of_no_problem now hget hfind
                simp only [answerReview, hid, hbody, hget, hfind, hreview]
                exact .accepted hid hget hfind (hproblems.trans hfind)
  · simp only [answerReview, hid]
    exact .unjudged (by simp [problemsWith, hid]) (by rw [hstatus]; decide)

/-! ## A request and what it counts as -/

/-- What comes of a request before it is counted: an update is answered as such, and every other
request leaves the service as it is. -/
inductive Routed (service : Service) (now : Timestamp) (request : Request) :
    Service × Response → Prop
  | update {segment result} : request.method = "PUT" → Target.IsClean request.target →
      resource? request.target = some (.submission segment) →
      Updated service now segment request.body result → Routed service now request result
  | other {response : Response} :
      (∀ segment, Target.IsClean request.target →
        resource? request.target = some (.submission segment) → request.method ≠ "PUT") →
      (request.method = "PUT" → response.status ≠ 200) →
      Routed service now request (service, response)

theorem answerResource_routed {service : Service} {now : Moment} {request : Request}
    {r : Resource} (hclean : Target.IsClean request.target)
    (hr : resource? request.target = some r) (hmethod : request.method ∈ r.methods) :
    Routed service now request (answerResource service now request r) := by
  cases r with
  | submission segment =>
      by_cases hput : request.method = "PUT"
      · simp only [answerResource, if_pos hput]
        exact .update hput hclean hr (answerReview_updated ..)
      · simp only [answerResource, if_neg hput]
        exact .other (fun _ _ _ => hput) (fun h => absurd h hput)
  | batch | attachments | statuses =>
      -- these take no updates
      have hput : request.method ≠ "PUT" := by
        intro h
        rw [h] at hmethod
        simp [Resource.methods] at hmethod
      exact .other (fun _ _ _ => hput) (fun h => absurd h hput)

/-- No resource takes a `CONNECT`. -/
theorem ne_connect_of_mem {r : Resource} {method : String} (h : method ∈ r.methods) :
    method ≠ "CONNECT" := by
  rintro rfl
  revert h
  cases r <;> simp [Resource.methods]

/-- A request is routed, and then counted once. -/
theorem answerRouted_routed (service : Service) (now : Moment) (request : Request) :
    ∃ route result, Routed service now request result ∧
      answerRouted service now request =
        ({ result.1 with counters := result.1.counters.request route result.2.status },
          result.2) := by
  unfold answerRouted
  simp only
  split
  · -- a redirect
    rename_i hredirect
    have hstatus (path : List Char) : (redirect request path).status ≠ 200 := by
      show (307 : Int) ≠ 200
      decide
    refine ⟨_, _, .other (fun _ hclean _ hput => hredirect ?_) (fun _ => hstatus _), rfl⟩
    rw [routedPath_of_ne (by rw [hput]; decide)]
    exact hclean
  · rename_i hstays
    have hpath : routedPath request = Target.path request.target := Classical.not_not.mp hstays
    rw [hpath]
    split
    · -- no resource
      rename_i hnone
      refine ⟨_, (service, _), .other (fun _ _ h => ?_) (fun _ => ?_), rfl⟩
      · rw [resource?, hnone] at h
        cases h
      · decide
    · rename_i r hr
      split
      · rename_i hmethod
        have hmem := List.contains_iff_mem.mp hmethod
        have hclean : Target.IsClean request.target := by
          rw [Target.IsClean, ← routedPath_of_ne (ne_connect_of_mem hmem), hpath]
        exact ⟨_, _, answerResource_routed hclean hr hmem, rfl⟩
      · -- a method that the resource does not take
        rename_i hmethod
        let response : Response :=
          { plain 405 "Method Not Allowed\n" with allow := some (", ".intercalate r.methods) }
        refine ⟨_, (service, response),
          .other (fun segment _ h hput => hmethod ?_) (fun _ => ?_), rfl⟩
        · rw [resource?, hr] at h
          obtain rfl := Option.some.inj h
          rw [hput]
          exact List.contains_iff_mem.mpr (by simp [Resource.methods])
        · show (405 : Int) ≠ 200
          decide

/-! ## Exchanges -/

/-- A request, the time at which it comes, and the service that meets it. -/
structure Exchange where
  before : Service
  now : Moment
  request : Request

namespace Exchange

variable (x : Exchange)

/-- The service after the request. -/
def after : Service := (answerInterface x.before x.now x.request).1

/-- The answer to the request. -/
def response : Response := (answerInterface x.before x.now x.request).2

/-- Whether the request asks for more than leave to ask. -/
def isCounted : Bool := x.request.method != "OPTIONS"

/-- Whether the exchange is a review that was saved: an update that was answered with 200. -/
def isReview : Bool := x.request.method == "PUT" && x.response.status == 200

/-- The path segment that names the submission of an update. -/
def segment? : Option (List UInt8) :=
  if x.request.method = "PUT" ∧ Target.IsClean x.request.target then
    match resource? x.request.target with
    | some (.submission segment) => some segment
    | _ => none
  else none

/-- The submission of a review that was saved, as a read shows it right after the answer. -/
def saved? : Option Submission := do
  guard x.isReview
  let segment ← x.segment?
  let id ← (readId segment).toOption
  (x.after.store.get id).toOption

/-- Whether the exchange is a review that was saved with a status. -/
def isReviewAs (status : Status) : Bool := x.saved?.any (·.status == status)

/-- The problems with an update. -/
def problems : List Problem :=
  x.segment?.elim [] fun segment => problemsWith x.before.store segment x.request.body

/-- Whether the exchange is an update that was answered with 400 because of its problems. -/
def isRefusal : Bool :=
  x.request.method == "PUT" && x.response.status == 400 && !x.problems.isEmpty

theorem segment?_eq_some {segment : List UInt8} (hput : x.request.method = "PUT")
    (hclean : Target.IsClean x.request.target)
    (hr : resource? x.request.target = some (.submission segment)) :
    x.segment? = some segment := by
  unfold segment?
  rw [if_pos ⟨hput, hclean⟩, hr]

theorem segment?_eq_none
    (h : ∀ segment, Target.IsClean x.request.target →
      resource? x.request.target = some (.submission segment) → x.request.method ≠ "PUT") :
    x.segment? = none := by
  unfold segment?
  split
  · rename_i hput
    split
    · rename_i segment hr
      exact absurd hput.1 (h segment hput.2 hr)
    · rfl
  · rfl

theorem saved?_of_not_isReview (h : x.isReview = false) : x.saved? = none := by
  unfold saved?
  rw [h]
  rfl

theorem problems_of_segment {segment : List UInt8} (h : x.segment? = some segment) :
    x.problems = problemsWith x.before.store segment x.request.body := by
  unfold problems
  rw [h]
  rfl

theorem problems_of_no_segment (h : x.segment? = none) : x.problems = [] := by
  unfold problems
  rw [h]
  rfl

/-- How an exchange changes the counts and the store. -/
structure Tallied : Prop where
  requests : x.after.counters.requests.total =
    x.before.counters.requests.total + if x.isCounted then 1 else 0
  reviews : x.after.counters.reviews =
    x.saved?.elim x.before.counters.reviews fun s => x.before.counters.reviews.bump s.status
  refusals : x.after.counters.refusals =
    x.before.counters.refusals + if x.isRefusal then 1 else 0
  saved : x.isReview = true → ∃ s, x.saved? = some s ∧ s.status ∈ Status.known ∧
    x.response = { jsonResponse 200 s.json? with crossOrigin := true }
  problems : x.problems ≠ [] →
    x.response = { refusal 400 (x.problems.map Problem.notice) with crossOrigin := true }
  store : x.isReview = false → x.after.store = x.before.store

/-- An exchange that is neither a review nor a refusal changes no count but that of requests. -/
theorem tallied_of_quiet (hreview : x.isReview = false) (hproblems : x.problems = [])
    (hstore : x.after.store = x.before.store)
    (hrequests : x.after.counters.requests.total =
      x.before.counters.requests.total + if x.isCounted then 1 else 0)
    (hreviews : x.after.counters.reviews = x.before.counters.reviews)
    (hrefusals : x.after.counters.refusals = x.before.counters.refusals) : x.Tallied where
  requests := hrequests
  reviews := by
    rw [x.saved?_of_not_isReview hreview]
    exact hreviews
  refusals := by
    have hno : x.isRefusal = false := by simp [isRefusal, hproblems]
    rw [hno]
    exact hrefusals
  saved := by
    intro h
    rw [hreview] at h
    cases h
  problems := fun hne => absurd hproblems hne
  store := fun _ => hstore

/-- A request that only asks for leave is not counted, and changes nothing. -/
theorem tallied_of_options (h : x.request.method = "OPTIONS") : x.Tallied := by
  have hput : x.request.method ≠ "PUT" := by
    rw [h]
    decide
  have hafter : x.after = x.before := by
    unfold after answerInterface
    rw [if_pos h]
  apply x.tallied_of_quiet
  · simp [isReview, hput]
  · exact x.problems_of_no_segment (x.segment?_eq_none fun _ _ _ => hput)
  · rw [hafter]
  · rw [hafter]
    simp [isCounted, h]
  · rw [hafter]
  · rw [hafter]

/-- A request that is routed is counted once, whatever comes of it. -/
theorem exists_routed (h : x.request.method ≠ "OPTIONS") :
    ∃ service response requests, Routed x.before x.now x.request (service, response) ∧
      requests.total = service.counters.requests.total + 1 ∧
      x.after = { service with counters := { service.counters with requests } } ∧
      x.response = { response with crossOrigin := true } := by
  obtain ⟨route, ⟨service, response⟩, hrouted, heq⟩ :=
    answerRouted_routed x.before x.now x.request
  refine ⟨service, response, _, hrouted,
    Tally.total_bump (response.status, route) service.counters.requests, ?_, ?_⟩
  · unfold after answerInterface
    rw [if_neg h, heq]
    rfl
  · unfold Exchange.response answerInterface
    rw [if_neg h, heq]

/-- A review that was saved is read back as it was written. -/
theorem saved?_of_accepted {segment : List UInt8} {id : Int} {s : Submission} {v : Verdict}
    (hreview : x.isReview = true) (hsegment : x.segment? = some segment)
    (hid : readId segment = .ok id) (hget : x.before.store.get id = .ok s)
    (hafter : x.after.store = x.before.store.reviewed x.now id v) :
    x.saved? = some (s.reviewed x.now v) := by
  unfold saved?
  rw [hreview, hsegment, hafter]
  show (((readId segment).toOption.bind fun id' =>
    ((x.before.store.reviewed x.now id v).get id').toOption)) = _
  rw [hid]
  show ((x.before.store.reviewed x.now id v).get id).toOption = _
  rw [Store.get_reviewed v x.now hget]
  rfl

/-- How an update changes the counts and the store. -/
theorem tallied_of_updated {segment : List UInt8} {service : Service} {response : Response}
    {requests : Tally (Int × String)} (hput : x.request.method = "PUT")
    (hsegment : x.segment? = some segment)
    (hupdated : Updated x.before x.now segment x.request.body (service, response))
    (htotal : requests.total = service.counters.requests.total + 1)
    (hafter : x.after = { service with counters := { service.counters with requests } })
    (hresponse : x.response = { response with crossOrigin := true }) : x.Tallied := by
  have hcounted : x.isCounted = true := by simp [isCounted, hput]
  have hproblems := x.problems_of_segment hsegment
  cases hupdated with
  | @accepted id v s hid hget hfind hnone =>
      have hreview : x.isReview = true := by simp [isReview, hput, hresponse, jsonResponse]
      have hsaved : x.saved? = some (s.reviewed x.now v) :=
        x.saved?_of_accepted hreview hsegment hid hget (by rw [hafter])
      have hno : x.isRefusal = false := by simp [isRefusal, hproblems, hnone]
      refine ⟨?_, ?_, ?_, ?_, ?_, ?_⟩
      · rw [hafter, hcounted]
        exact htotal
      · rw [hafter, hsaved]
        rfl
      · rw [hafter, hno]
        rfl
      · intro _
        exact ⟨_, hsaved, reviewed_known x.now hfind, hresponse⟩
      · intro hne
        exact absurd (hproblems.trans hnone) hne
      · intro h
        rw [hreview] at h
        cases h
  | refused hsome =>
      rw [← hproblems] at hresponse hsome
      have hreview : x.isReview = false := by simp [isReview, hresponse, refusal, jsonResponse]
      have hyes : x.isRefusal = true := by
        simp [isRefusal, hput, hresponse, refusal, jsonResponse, hsome]
      refine ⟨?_, ?_, ?_, ?_, ?_, ?_⟩
      · rw [hafter, hcounted]
        exact htotal
      · rw [hafter, x.saved?_of_not_isReview hreview]
        rfl
      · rw [hafter, hyes]
        rfl
      · intro h
        rw [hreview] at h
        cases h
      · exact fun _ => hresponse
      · intro _
        rw [hafter]
  | unjudged hnone hstatus =>
      apply x.tallied_of_quiet
      · simp [isReview, hresponse, hstatus]
      · exact hproblems.trans hnone
      · rw [hafter]
      · rw [hafter, hcounted]
        exact htotal
      · rw [hafter]
      · rw [hafter]

/-- How every exchange changes the counts and the store. -/
theorem tallied : x.Tallied := by
  by_cases hoptions : x.request.method = "OPTIONS"
  · exact x.tallied_of_options hoptions
  obtain ⟨service, response, requests, hrouted, htotal, hafter, hresponse⟩ :=
    x.exists_routed hoptions
  cases hrouted with
  | update hput hclean hr hupdated =>
      exact x.tallied_of_updated hput (x.segment?_eq_some hput hclean hr) hupdated htotal hafter
        hresponse
  | other hnot hstatus =>
      apply x.tallied_of_quiet
      · by_cases hput : x.request.method = "PUT"
        · simp [isReview, hresponse, hstatus hput]
        · simp [isReview, hput]
      · exact x.problems_of_no_segment (x.segment?_eq_none hnot)
      · rw [hafter]
      · rw [hafter]
        simpa [isCounted, hoptions] using htotal
      · rw [hafter]
      · rw [hafter]

/-- A count of the reviews, the sum or that of a status, moves on with the reviews of its kind. -/
theorem reviews_total : x.after.counters.reviews.total =
    x.before.counters.reviews.total + if x.isReview then 1 else 0 := by
  obtain ⟨-, hreviews, -, hsaved, -, -⟩ := x.tallied
  rw [hreviews]
  by_cases hreview : x.isReview = true
  · obtain ⟨s, hs, -⟩ := hsaved hreview
    rw [hs, if_pos hreview]
    exact Tally.total_bump _ _
  · rw [x.saved?_of_not_isReview (by simpa using hreview), if_neg hreview]
    rfl

theorem reviews_countOf (status : Status) : x.after.counters.reviews.countOf status =
    x.before.counters.reviews.countOf status + if x.isReviewAs status then 1 else 0 := by
  rw [x.tallied.reviews]
  unfold isReviewAs
  cases x.saved? with
  | none => rfl
  | some s =>
      show (x.before.counters.reviews.bump s.status).countOf status = _
      rw [Tally.countOf_bump]
      simp

theorem reviews_known (h : ∀ entry ∈ x.before.counters.reviews, entry.1 ∈ Status.known) :
    ∀ entry ∈ x.after.counters.reviews, entry.1 ∈ Status.known := by
  obtain ⟨-, hreviews, -, hsaved, -, -⟩ := x.tallied
  rw [hreviews]
  by_cases hreview : x.isReview = true
  · obtain ⟨s, hs, hknown, -⟩ := hsaved hreview
    rw [hs]
    intro entry hentry
    rcases Tally.mem_bump _ _ hentry with heq | ⟨n, hn⟩
    · rw [heq]
      exact hknown
    · exact h (entry.1, n) hn
  · rw [x.saved?_of_not_isReview (by simpa using hreview)]
    exact h

end Exchange

/-- A service that reports its counts answers for the report, and redirects a target that is not
clean, before the interface sees the request; neither is counted. -/
theorem answer_counted (service : Service) (now : Moment) (request : Request) :
    (answer service now request).1 = service ∨
      (answer service now request).1 = Exchange.after ⟨service, now,
        { request with method := if request.method = "" then "GET" else request.method }⟩ := by
  unfold answer
  generalize { request with method := if request.method = "" then "GET" else request.method } = sent
  dsimp only
  split
  · exact .inr rfl
  · split
    · exact .inl rfl
    · split
      · exact .inl rfl
      · exact .inr rfl

/-! ## Runs -/

/-- The exchanges of a run of requests, each with the time at which it comes. -/
def history (service : Service) : List (Moment × Request) → List Exchange
  | [] => []
  | (now, request) :: rest =>
    let x : Exchange := ⟨service, now, request⟩
    x :: history x.after rest

/-- The service after a run of requests. -/
def afterAll (service : Service) : List (Moment × Request) → Service
  | [] => service
  | (now, request) :: rest => afterAll (Exchange.after ⟨service, now, request⟩) rest

section Run

variable (service : Service) (requests : List (Moment × Request))

theorem map_request_history : (history service requests).map (·.request) = requests.map (·.2) := by
  induction requests generalizing service with
  | nil => rfl
  | cons first rest ih => rw [history, List.map_cons, List.map_cons, ih]

theorem countP_isCounted_history :
    (history service requests).countP (·.isCounted) =
      requests.countP (fun r => r.2.method != "OPTIONS") := by
  have hcount := congrArg (List.countP fun r => r.method != "OPTIONS")
    (map_request_history service requests)
  rwa [List.countP_map, List.countP_map] at hcount

/-- A count that every exchange of a kind moves on by one, and no other moves, is at the end of a
run the number of its exchanges of that kind. -/
theorem count_afterAll (count : Counters → Nat) (kind : Exchange → Bool)
    (hstep : ∀ x : Exchange,
      count x.after.counters = count x.before.counters + if kind x then 1 else 0) :
    count (afterAll service requests).counters =
      count service.counters + (history service requests).countP kind := by
  induction requests generalizing service with
  | nil => rfl
  | cons first rest ih =>
      have hfirst := hstep ⟨service, first.1, first.2⟩
      rw [afterAll, history, ih, List.countP_cons]
      simp only at hfirst ⊢
      omega

/-- Reviews are counted under known statuses only. -/
theorem known_afterAll (h : ∀ entry ∈ service.counters.reviews, entry.1 ∈ Status.known) :
    ∀ entry ∈ (afterAll service requests).counters.reviews, entry.1 ∈ Status.known := by
  induction requests generalizing service with
  | nil => exact h
  | cons first rest ih => exact ih _ (Exchange.reviews_known ⟨service, first.1, first.2⟩ h)

end Run

/-- **The counts match the answers.** A service starts to count, over any store, and answers any
run of requests. Then it counted every request but those that only ask for leave. The
reviews that it counted are the updates answered with 200, each under the status of the submission
that the answer shows, and that is a known one. The refusals that it counted are the updates
answered with 400 because of the problems that the answer names. And only a request that moves the
count of reviews on can change the store. -/
theorem counts_match_history (store : Store) (requests : List (Moment × Request)) :
    let exchanges := history { store } requests
    let counters := (afterAll { store } requests).counters
    counters.requests.total = requests.countP (fun r => r.2.method != "OPTIONS") ∧
      counters.reviews.total = exchanges.countP (·.isReview) ∧
      (∀ status, counters.reviews.countOf status = exchanges.countP (·.isReviewAs status)) ∧
      (∀ entry ∈ counters.reviews, entry.1 ∈ Status.known) ∧
      (∀ x ∈ exchanges, x.isReview → ∃ s, x.saved? = some s ∧ s.status ∈ Status.known ∧
        x.response = { jsonResponse 200 s.json? with crossOrigin := true }) ∧
      counters.refusals = exchanges.countP (·.isRefusal) ∧
      (∀ x ∈ exchanges, x.problems ≠ [] →
        x.response = { refusal 400 (x.problems.map Problem.notice) with crossOrigin := true }) ∧
      ∀ x ∈ exchanges, x.after.counters.reviews.total = x.before.counters.reviews.total →
        x.after.store = x.before.store := by
  intro exchanges counters
  have hcount := count_afterAll { store } requests
  refine ⟨?_, ?_, fun status => ?_, ?_, ?_, ?_, ?_, ?_⟩
  · have h := hcount (·.requests.total) (·.isCounted) fun x => x.tallied.requests
    rwa [show (Counters.requests {}).total = 0 from rfl, Nat.zero_add,
      countP_isCounted_history] at h
  · have h := hcount (·.reviews.total) (·.isReview) Exchange.reviews_total
    rwa [show (Counters.reviews {}).total = 0 from rfl, Nat.zero_add] at h
  · have h := hcount (·.reviews.countOf status) (·.isReviewAs status)
      fun x => x.reviews_countOf status
    rwa [show (Counters.reviews {}).countOf status = 0 from rfl, Nat.zero_add] at h
  · exact known_afterAll { store } requests fun _ h => absurd h List.not_mem_nil
  · exact fun x _ => x.tallied.saved
  · have h := hcount (·.refusals) (·.isRefusal) fun x => x.tallied.refusals
    rwa [show Counters.refusals {} = 0 from rfl, Nat.zero_add] at h
  · exact fun x _ => x.tallied.problems
  · intro x _ hsame
    apply x.tallied.store
    have hmoved := x.reviews_total
    by_contra hreview
    rw [if_pos (by simpa using hreview)] at hmoved
    omega

end ReviewQueue.Server
