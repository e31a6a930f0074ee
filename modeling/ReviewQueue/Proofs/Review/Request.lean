import ReviewQueue.Proofs.Store.Reviewed
import ReviewQueue.Server.Handler
import ReviewQueue.Tools

/-!
# Review requests in two steps

A review request, over HTTP or as a tool call, is judged against what a read of the submission
shows, and only then written. `VerdictRequest.judge` and `Ticket.write` are these two steps, and
`answer_eq_judge_write` says that they make up the request as it is answered at once. Between the
steps only the ticket is carried along.

* `judge_eq_ok` — a ticket was judged against the submission that the store held;
* `write_of_no_problem` — a ticket with which nothing is wrong is written in full;
* `Server.answer_store`, `Tools.call_store` — what any request or call can do to the store.
-/

namespace ReviewQueue

/-- A review request as it comes in. -/
inductive VerdictRequest where
  | update (segment : List UInt8) (body : String)
  | call (args : Tools.Args)

/-- The answer to a review request. -/
inductive VerdictAnswer where
  | response (r : Http.Response)
  | result (r : ToolResult)

/-- What a request asks for, and whether it came over HTTP. -/
structure VerdictOrder where
  overHttp : Bool
  id : Int
  verdict : Verdict

namespace VerdictOrder

/-- The answer when the submission could not be read. -/
def unread (o : VerdictOrder) (e : StoreError) : VerdictAnswer :=
  if o.overHttp then .response (Server.storeFailure e) else .result (.unread o.id e)

/-- The answer when there are problems. -/
def refused (o : VerdictOrder) (problems : List Problem) : VerdictAnswer :=
  if o.overHttp then .response (Server.refusal 400 (problems.map Problem.notice))
  else
    .result (.failed
      ("review refused:\n- " ++ "\n- ".intercalate (problems.map Problem.message)))

/-- The answer when the update could not be written. -/
def failed (o : VerdictOrder) (e : StoreError) : VerdictAnswer :=
  if o.overHttp then .response (Server.storeFailure e)
  else .result (.failed ("failed to save review: " ++ e.message))

/-- The answer after the update was written. -/
def saved (o : VerdictOrder) (s : Submission) : VerdictAnswer :=
  if o.overHttp then .response (Server.jsonResponse 200 s.json?) else .result (.ofJson s.json?)

end VerdictOrder

/-- The answers that say of something that it was not found. -/
def VerdictAnswer.SaysNotFound : VerdictAnswer → Prop
  | .response r => r.status = 404
  | .result r => r.isError = true ∧ ∃ what, r.text = what ++ ": not found"

theorem VerdictOrder.failed_saysNotFound (o : VerdictOrder) {e : StoreError}
    (h : e.isNotFound = true) : (o.failed e).SaysNotFound := by
  unfold VerdictOrder.failed
  cases o.overHttp with
  | true =>
      show (if e.isNotFound then 404 else 500 : Int) = 404
      rw [if_pos h]
  | false =>
      refine ⟨rfl, ?_⟩
      show ∃ what, "failed to save review: " ++ e.message = what ++ ": not found"
      cases e with
      | noSubmission id =>
          exact ⟨"failed to save review: " ++ ("submission " ++ Text.ofInt id),
            (String.append_assoc ..).symm⟩
      | noPart id index =>
          exact ⟨"failed to save review: " ++
            ("submission " ++ Text.ofInt id ++ " part " ++ Text.ofInt index),
            (String.append_assoc ..).symm⟩
      | closed action => cases h
      | duplicatePart index => cases h
      | duplicateAttachment => cases h
      | orphanAttachment => cases h
      | unreadable action cause => cases h

/-- An order that was judged to be without problems and is not written yet. -/
structure Ticket extends VerdictOrder where
  /-- The submission that it was judged against. -/
  seen : Submission

/-- The second step: writes the update, and answers. -/
def Ticket.write (t : Ticket) (store : Store) (now : Timestamp) : Store × VerdictAnswer :=
  match store.review now t.id t.verdict with
  | (after, .error e) => (after, t.failed e)
  | (after, .ok s) => (after, t.saved s)

namespace VerdictRequest

/-- What a request asks for. -/
def order : VerdictRequest → Except VerdictAnswer VerdictOrder
  | .update segment body =>
    match Server.readId segment with
    | .error r => .error (.response r)
    | .ok id =>
      match Json.decodeFirst? {} Verdict.fill body.toList with
      | none => .error (.response (Server.failure 400 "invalid JSON body"))
      | some v => .ok ⟨true, id, v⟩
  | .call args =>
    match Tools.int? args "id" with
    | none => .error (.result (.missing "id"))
    | some id =>
      match Tools.verdict? id args with
      | none => .error (.result (.failed "invalid parts JSON: <json error>"))
      | some v => .ok ⟨false, id, v⟩

/-- The first step: reads the submission and judges the update. -/
def judge (r : VerdictRequest) (store : Store) : Except VerdictAnswer Ticket :=
  match r.order with
  | .error a => .error a
  | .ok o =>
    match store.get o.id with
    | .error e => .error (o.unread e)
    | .ok s =>
      match Problem.find s o.verdict with
      | p :: ps => .error (o.refused (p :: ps))
      | [] => .ok ⟨o, s⟩

/-- A request that is answered at once. -/
def answer (r : VerdictRequest) (service : Service) (now : Timestamp) : Store × VerdictAnswer :=
  match r with
  | .update segment body =>
    let (service, response) := Server.answerReview service now segment body
    (service.store, .response response)
  | .call args =>
    let (store, result) := Tools.review service.store now args
    (store, .result result)

/-- A request is its two steps, one right after the other. -/
theorem answer_eq_judge_write (r : VerdictRequest) (service : Service) (now : Timestamp) :
    r.answer service now =
      match r.judge service.store with
      | .error a => (service.store, a)
      | .ok t => t.write service.store now := by
  -- both sides look at the same four results, one after the other
  cases r with
  | update segment body =>
      cases hid : Server.readId segment with
      | error e => simp [answer, judge, order, Server.answerReview, hid]
      | ok id =>
          cases hbody : Json.decodeFirst? {} Verdict.fill body.toList with
          | none => simp [answer, judge, order, Server.answerReview, hid, hbody]
          | some v =>
              simp only [answer, judge, order, Server.answerReview, hid, hbody]
              cases hget : service.store.get id with
              | error e => rfl
              | ok s =>
                  cases hfind : Problem.find s v with
                  | cons p ps => simp [hfind, VerdictOrder.refused]
                  | nil =>
                      rcases hreview : service.store.review now id v with ⟨after, _ | _⟩ <;>
                        simp [hfind, hreview, Ticket.write, VerdictOrder.failed, VerdictOrder.saved]
  | call args =>
      cases hid : Tools.int? args "id" with
      | none => simp [answer, judge, order, Tools.review, hid]
      | some id =>
          cases hverdict : Tools.verdict? id args with
          | none => simp [answer, judge, order, Tools.review, hid, hverdict]
          | some v =>
              simp only [answer, judge, order, Tools.review, hid, hverdict]
              cases hget : service.store.get id with
              | error e => rfl
              | ok s =>
                  cases hfind : Problem.find s v with
                  | cons p ps => simp [hfind, VerdictOrder.refused]
                  | nil =>
                      rcases hreview : service.store.review now id v with ⟨after, _ | _⟩ <;>
                        simp [hfind, hreview, Ticket.write, VerdictOrder.failed, VerdictOrder.saved]

/-- A ticket was judged against the submission that the store held. -/
theorem judge_eq_ok {r : VerdictRequest} {store : Store} {t : Ticket} (h : r.judge store = .ok t) :
    store.get t.id = .ok t.seen ∧ Problem.find t.seen t.verdict = [] := by
  unfold judge at h
  cases horder : r.order with
  | error a => simp [horder] at h
  | ok o =>
      cases hget : store.get o.id with
      | error e => simp [horder, hget] at h
      | ok s =>
          cases hfind : Problem.find s o.verdict with
          | cons p ps => simp [horder, hget, hfind] at h
          | nil =>
              simp only [horder, hget, hfind, Except.ok.injEq] at h
              subst h
              exact ⟨hget, hfind⟩

end VerdictRequest

/-- A ticket with which nothing is wrong is written in full. -/
theorem Ticket.write_of_no_problem (t : Ticket) {store : Store} {s : Submission} (now : Moment)
    (hget : store.get t.id = .ok s) (hfind : Problem.find s t.verdict = []) :
    t.write store now =
      (store.reviewed now t.id t.verdict, t.saved (s.reviewed now t.verdict)) := by
  unfold write
  rw [Store.review_of_no_problem now hget hfind]

/-- Whenever that is, even if it cannot be read then. -/
theorem Ticket.write_fst (t : Ticket) {store : Store} {s : Submission} (now : Timestamp)
    (hget : store.get t.id = .ok s) (hfind : Problem.find s t.verdict = []) :
    (t.write store now).1 = store.reviewed now t.id t.verdict := by
  obtain ⟨hopen, r, hrow, -⟩ := Store.get_eq_ok_iff.mp hget
  have hreview := Store.review_of_known now hopen (by rw [hrow]; rfl)
    (Store.known_of_no_problem hget hfind)
  unfold write
  rw [hreview]
  cases (store.reviewed now t.id t.verdict).get t.id <;> rfl

/-- A ticket for a submission that is not there is not written at all. -/
theorem Ticket.write_of_no_row (t : Ticket) {store : Store} (now : Timestamp)
    (hopen : store.isOpen = true) (hrow : store.row? t.id = none) :
    ∃ e, t.write store now = (store, t.failed e) ∧ e.isNotFound = true := by
  obtain ⟨e, hreview, hkind⟩ := Store.review_of_no_row now t.verdict hopen hrow
  refine ⟨e, ?_, hkind⟩
  unfold write
  rw [hreview]

/-- Nothing was written, or one update with which nothing was wrong. -/
def Store.AtMostReviewed (store : Store) (now : Timestamp) (after : Store) : Prop :=
  after = store ∨ ∃ id v s, store.get id = .ok s ∧ Problem.find s v = [] ∧
    after = store.reviewed now id v

/-- What a review request does to the store. -/
theorem VerdictRequest.answer_store (r : VerdictRequest) (service : Service) (now : Timestamp) :
    service.store.AtMostReviewed now (r.answer service now).1 := by
  rw [answer_eq_judge_write]
  cases hjudge : r.judge service.store with
  | error a => exact .inl rfl
  | ok t =>
      obtain ⟨hget, hfind⟩ := judge_eq_ok hjudge
      refine .inr ⟨t.id, t.verdict, t.seen, hget, hfind, ?_⟩
      exact t.write_fst now hget hfind

/-! ## All requests -/

section Service

variable (service : Service) (now : Timestamp) (request : Http.Request)

theorem Server.answerResource_store (r : Resource) :
    service.store.AtMostReviewed now (answerResource service now request r).1.store := by
  unfold answerResource
  split
  · exact .inl rfl
  · exact .inl rfl
  · exact .inl rfl
  · -- a submission: only the method that updates reaches the store
    split
    · exact (VerdictRequest.update _ request.body).answer_store service now
    · exact .inl rfl

theorem Server.answerRouted_store :
    service.store.AtMostReviewed now (answerRouted service now request).1.store := by
  unfold answerRouted
  simp only
  split
  · exact .inl rfl
  · split
    · exact .inl rfl
    · split
      · exact answerResource_store service now request _
      · exact .inl rfl

theorem Server.answerInterface_store :
    service.store.AtMostReviewed now (answerInterface service now request).1.store := by
  unfold answerInterface
  split
  · exact .inl rfl
  · exact answerRouted_store service now request

/-- What any request to the service does to the store: only updates write. -/
theorem Server.answer_store :
    service.store.AtMostReviewed now (Server.answer service now request).1.store := by
  unfold answer
  generalize { request with method := if request.method = "" then "GET" else request.method } = sent
  dsimp only
  split
  · exact answerInterface_store service now sent
  · split
    · exact .inl rfl
    · split
      · exact .inl rfl
      · exact answerInterface_store service now _

end Service

/-- What any tool call does to the store: only reviews write. -/
theorem Tools.call_store (store : Store) (now : Timestamp) (tool : String) (args : Args) :
    store.AtMostReviewed now (Tools.call store now tool args).1 := by
  unfold call
  split
  · exact .inl rfl
  · exact .inl rfl
  · exact (VerdictRequest.call args).answer_store { store } now
  · exact .inl rfl

end ReviewQueue
