import ReviewQueue.Proofs.Review.Effects
import ReviewQueue.Proofs.Review.Landed

/-!
# What a reviewer is told of a failure

A submit sends its write through a client. Whatever comes back that is no success, the reviewer is
told of it: message by message where the service states what is wrong, and in one message of its own
everywhere else.

* `Session.exchange` — what came back for a write when redirects were followed;
* `Session.Failure` — the ways in which a write fails, each with what is told of it;
* `Problem.messages_body` — the messages of a refused update survive their way over the wire;
* `failures_told` — every failure is told, item for item;
* `redirect_untold` — a redirect is no failure, whatever its body says.
-/

namespace ReviewQueue

open Http

/-! ## Messages in a body -/

/-- The messages that the body of an answer brings. -/
def Refusal.messages (body : String) : List Notice :=
  ((Json.decode? {} Refusal.fill body.toList).bind Refusal.info).getD []

namespace RequestError

/-- The refusal of an answer carries the messages of its body. -/
theorem info_ofAnswer_of_messages {body : String} (h : Refusal.messages body ≠ []) (status : Int) :
    (ofAnswer status body).info = Refusal.messages body := by
  unfold Refusal.messages at h ⊢
  unfold ofAnswer
  cases hdecode : Json.decode? {} Refusal.fill body.toList with
  | none =>
      rw [hdecode] at h
      exact absurd rfl h
  | some refusal =>
      rw [hdecode] at h
      obtain ⟨_ | _ | ⟨item, items⟩⟩ := refusal
      · exact absurd rfl h
      · exact absurd rfl h
      · rfl

/-- Without any, it says what its status means. -/
theorem info_ofAnswer_of_nil {body : String} (h : Refusal.messages body = []) (status : Int) :
    (ofAnswer status body).info = [.ofError (Http.statusText status)] := by
  unfold Refusal.messages at h
  unfold ofAnswer
  cases hdecode : Json.decode? {} Refusal.fill body.toList with
  | none => rfl
  | some refusal =>
      rw [hdecode] at h
      obtain ⟨_ | _ | ⟨item, items⟩⟩ := refusal
      · rfl
      · rfl
      · cases h

end RequestError

/-- A reply that leads nowhere else. -/
def Http.Reply.IsLast : Reply → Prop
  | .answered response => Client.location? response = none
  | .cutOff _ | .lost _ => True

namespace Client

/-- A request is sent once when its reply leads nowhere else. -/
theorem follow_of_isLast [Peer ω] {w next : ω} {sent : Outgoing} {reply : Reply}
    (hanswer : Peer.answer w sent = (next, reply)) (hlast : reply.IsLast) {fuel : Nat}
    {location : String} :
    follow (fuel + 1) location w sent = (next, sent.url.shownText, reply) := by
  rw [follow]
  cases reply with
  | answered response =>
      have hnone : location? response = none := hlast
      simp only [hanswer, hnone]
  | cutOff reason | lost reason => simp only [hanswer]

/-- A request that cannot be made has a defect. -/
theorem outgoing_eq_error {c : Client} {method path : String} {body : Option String}
    {cause : RequestError} (h : c.outgoing method path body = .error cause) :
    ∃ url defect, cause = .defect url defect := by
  unfold outgoing at h
  split at h
  · cases h
    exact ⟨_, _, rfl⟩
  · dsimp only at h
    split at h
    · cases h
      exact ⟨_, _, rfl⟩
    · cases h

end Client

namespace Session

variable {s : Session} {e : Executor}

section Exchange

variable [Http.Peer ω] {d : Desk (Wire ω)}

/-- What came back for the write of a session when redirects were followed, with the URL that is
named when nothing came. -/
def exchange (s : Session) (d : Desk (Wire ω)) : Except RequestError (String × Reply) :=
  (d.remote.client.outgoing "PUT" s.coordinator.detailPath
    (some (.ofList (s.form.verdict s.mode s.submission).json))).map fun sent =>
      (Client.follow 10 "" d.remote.peer sent).2

/-- The exchange of a write ends with its first reply, unless that is a redirect. -/
theorem exchange_of_isLast {sent : Outgoing} {peer : ω} {reply : Reply}
    (hsent : d.remote.client.outgoing "PUT" s.coordinator.detailPath
      (some (.ofList (s.form.verdict s.mode s.submission).json)) = .ok sent)
    (hanswer : Peer.answer d.remote.peer sent = (peer, reply)) (hlast : reply.IsLast) :
    s.exchange d = .ok (sent.url.shownText, reply) := by
  unfold exchange
  rw [hsent, Except.map, Client.follow_of_isLast hanswer hlast]

/-- The write was answered with a success. -/
def Answered (s : Session) (d : Desk (Wire ω)) : Prop :=
  ∃ url response, s.exchange d = .ok (url, .answered response) ∧
    200 ≤ response.status ∧ response.status ≤ 299

/-- How a write fails, and what is told of it. -/
inductive Failure (s : Session) (d : Desk (Wire ω)) : List Notice → Prop
  | unsent {url : String} {defect : RequestDefect}
      (h : s.exchange d = .error (.defect url defect)) :
      Failure s d [.ofError (RequestError.defect url defect).message]
  | lost {url : String} {reason : String} (h : s.exchange d = .ok (url, .lost reason)) :
      Failure s d [.ofError (RequestError.noAnswer "PUT" s.coordinator.detailPath
        (Client.verb (Client.wireMethod "PUT")) url reason).message]
  | cutOff {url : String} {reason : String} (h : s.exchange d = .ok (url, .cutOff reason)) :
      Failure s d [.ofError (RequestError.cutOff "PUT" s.coordinator.detailPath reason).message]
  | stated {url : String} {response : Response}
      (h : s.exchange d = .ok (url, .answered response))
      (hstatus : ¬(200 ≤ response.status ∧ response.status ≤ 299))
      (hmessages : Refusal.messages response.body ≠ []) :
      Failure s d ((Refusal.messages response.body).map Notice.shown)
  | unstated {url : String} {response : Response}
      (h : s.exchange d = .ok (url, .answered response))
      (hstatus : ¬(200 ≤ response.status ∧ response.status ≤ 299))
      (hmessages : Refusal.messages response.body = []) :
      Failure s d [.ofError (Http.statusText response.status)]

/-- A failure is always told of. -/
theorem Failure.ne_nil {notices : List Notice} (h : s.Failure d notices) : notices ≠ [] := by
  cases h with
  | unsent | lost | cutOff | unstated => exact List.cons_ne_nil _ _
  | stated _ _ hmessages => exact mt List.map_eq_nil_iff.mp hmessages

/-- The outcome of a write is what its exchange says. -/
theorem put_outcome (s : Session) (d : Desk (Wire ω)) :
    (s.put d).2 = match s.exchange d with
      | .error cause => .error cause
      | .ok (url, reply) => Client.readReply "PUT" s.coordinator.detailPath url reply := by
  show (d.remote.client.send d.remote.peer "PUT" s.coordinator.detailPath
    (some (.ofList (s.form.verdict s.mode s.submission).json))).2 = _
  unfold exchange Client.send
  cases d.remote.client.outgoing "PUT" s.coordinator.detailPath
    (some (.ofList (s.form.verdict s.mode s.submission).json)) with
  | error cause => rfl
  | ok sent => rfl

/-- A write succeeds or fails in one of the ways. -/
theorem answered_or_failure (s : Session) (d : Desk (Wire ω)) :
    s.Answered d ∨ ∃ notices, s.Failure d notices := by
  cases hexchange : s.exchange d with
  | error cause =>
      -- no request was made, which only a defect of the request can keep from being made
      have hdefect : ∃ url defect, cause = .defect url defect := by
        unfold exchange at hexchange
        cases hout : d.remote.client.outgoing "PUT" s.coordinator.detailPath
          (some (.ofList (s.form.verdict s.mode s.submission).json)) with
        | error other =>
            rw [hout] at hexchange
            cases hexchange
            exact Client.outgoing_eq_error hout
        | ok sent =>
            rw [hout] at hexchange
            cases hexchange
      obtain ⟨url, defect, rfl⟩ := hdefect
      exact .inr ⟨_, .unsent hexchange⟩
  | ok result =>
      obtain ⟨url, reply⟩ := result
      cases reply with
      | lost reason => exact .inr ⟨_, .lost hexchange⟩
      | cutOff reason => exact .inr ⟨_, .cutOff hexchange⟩
      | answered response =>
          by_cases hstatus : 200 ≤ response.status ∧ response.status ≤ 299
          · exact .inl ⟨url, response, hexchange, hstatus⟩
          · by_cases hmessages : Refusal.messages response.body = []
            · exact .inr ⟨_, .unstated hexchange hstatus hmessages⟩
            · exact .inr ⟨_, .stated hexchange hstatus hmessages⟩

/-- The error of a failed write carries what is told of it. -/
theorem Failure.put {notices : List Notice} (h : s.Failure d notices) :
    ∃ cause, (s.put d).2 = .error cause ∧ Notice.ofInfo cause.info = notices := by
  have houtcome := put_outcome s d
  cases h with
  | unsent h | lost h | cutOff h =>
      rw [h] at houtcome
      exact ⟨_, houtcome, rfl⟩
  | stated h hstatus hmessages =>
      rw [h] at houtcome
      refine ⟨_, houtcome.trans (if_neg hstatus), ?_⟩
      rw [RequestError.info_ofAnswer_of_messages hmessages]
      rfl
  | unstated h hstatus hmessages =>
      rw [h] at houtcome
      refine ⟨_, houtcome.trans (if_neg hstatus), ?_⟩
      rw [RequestError.info_ofAnswer_of_nil hmessages]
      rfl

/-- After a failed write the reviewer is told of it, and nothing else happens. -/
theorem Failure.calls {notices : List Notice} (hopen : ¬ s.Shut e) (h : s.Failure d notices) :
    (s.submit e d).calls =
      .put s.coordinator.detailPath (s.form.verdict s.mode s.submission) ::
        notices.map .notify := by
  obtain ⟨cause, houtcome, rfl⟩ := h.put
  exact (submit_of_failed hopen (Prod.ext rfl houtcome)).calls

end Exchange

end Session

/-! ## Updates that the service refuses -/

namespace Problem

/-- Judging does not see an empty list of part verdicts. -/
theorem find_trimmed (s : Submission) (v : Verdict) : find s v.trimmed = find s v := by
  cases hparts : v.hasParts with
  | true => rw [Verdict.trimmed_of_hasParts hparts]
  | false =>
      have hlist : v.partList = [] := by simpa [Verdict.hasParts] using hparts
      rw [Verdict.trimmed_of_not_hasParts hparts]
      -- with no parts in the verdict, both are judged by the verdict on the whole
      have hnone : ({ v with parts := none } : Verdict).hasParts = false := rfl
      unfold find ofParts ofWhole
      rw [hparts, hnone, hlist]
      rfl

/-- The body of a refused update brings its messages as they were stated. -/
theorem messages_body (status : Int) (problems : List Problem) :
    Refusal.messages (Server.refusal status (problems.map notice)).body = problems.map notice := by
  have hbody : (Server.refusal status (problems.map notice)).body.toList =
      Refusal.json ⟨some (problems.map notice)⟩ ++ ['\n'] := String.toList_ofList
  have hdecode : Json.decode? {} Refusal.fill
      (Server.refusal status (problems.map notice)).body.toList =
        some ⟨some (problems.map notice)⟩ := by
    rw [hbody]
    exact (Refusal.prints _).decode_append (by decide) Json.blanks_newline
  unfold Refusal.messages
  rw [hdecode]
  rfl

/-- A problem is shown as it is stated: it has a kind. -/
theorem shown_notices (problems : List Problem) :
    Notice.ofInfo (problems.map notice) = problems.map notice := by
  unfold Notice.ofInfo
  rw [List.map_map]
  rfl

end Problem

namespace Session

variable {s : Session} {e : Executor} {d : Desk (Wire RunningService)} {id : Int} {old : Submission}
  {target : String} {segment : List UInt8}

/-- The write of an update that the service refuses fails with what is wrong with it. -/
theorem put_of_problems
    (hreach : d.remote.client.Reaches s.coordinator.detailPath target (.submission segment))
    (hnames : Server.Names segment id) (hget : d.store.get id = .ok old)
    (hv : (s.form.verdict s.mode s.submission).Portable)
    (hfind : Problem.find old (s.form.verdict s.mode s.submission) ≠ []) :
    ∃ cause, (s.put d).2 = .error cause ∧
      cause.info = (Problem.find old (s.form.verdict s.mode s.submission)).map Problem.notice := by
  let v := s.form.verdict s.mode s.submission
  have hbody :
      Json.decodeFirst? {} Verdict.fill (String.ofList v.json).toList = some v.trimmed := by
    rw [String.toList_ofList]
    exact (Verdict.prints hv).decodeFirst (by decide)
  have hsame : Problem.find old v.trimmed = Problem.find old v := Problem.find_trimmed old v
  have hanswer := Server.answerReview_of_problems d.remote.peer.clock.now
    (Server.readId_of_names hnames) hbody hget (hsame ▸ hfind)
  rw [hsame] at hanswer
  have hput : "PUT" ∈ Server.Resource.methods (.submission segment) := by
    simp [Server.Resource.methods]
  obtain ⟨counters, hsend⟩ := Client.send_eq_of_reaches hreach (.inr rfl) hput d.remote.peer
    (some (.ofList v.json))
  have houtcome : (s.put d).2 = .error (.ofAnswer 400
      (Server.refusal 400 ((Problem.find old v).map Problem.notice)).body) := by
    have hrefused : ¬(200 ≤ (400 : Int) ∧ (400 : Int) ≤ 299) := by decide
    have hsent : (s.put d).2 = (d.remote.client.send d.remote.peer "PUT" s.coordinator.detailPath
        (some (.ofList v.json))).2 := rfl
    rw [hsent, hsend]
    simp only [Server.answerResource, if_true, Option.getD_some, hanswer.2]
    exact if_neg hrefused
  refine ⟨_, houtcome, ?_⟩
  -- the messages come back as they were sent, and there is at least one
  have hmessages := Problem.messages_body 400 (Problem.find old v)
  rw [RequestError.info_ofAnswer_of_messages, hmessages]
  rw [hmessages]
  exact mt List.map_eq_nil_iff.mp hfind

/-- The reviewer is told what is wrong with a refused update, problem by problem. -/
theorem calls_of_problems (hopen : ¬ s.Shut e)
    (hreach : d.remote.client.Reaches s.coordinator.detailPath target (.submission segment))
    (hnames : Server.Names segment id) (hget : d.store.get id = .ok old)
    (hv : (s.form.verdict s.mode s.submission).Portable)
    (hfind : Problem.find old (s.form.verdict s.mode s.submission) ≠ []) :
    (s.submit e d).calls =
      .put s.coordinator.detailPath (s.form.verdict s.mode s.submission) ::
        (Problem.find old (s.form.verdict s.mode s.submission)).map fun p => .notify p.notice := by
  obtain ⟨cause, houtcome, hinfo⟩ := put_of_problems hreach hnames hget hv hfind
  have hcalls := (submit_of_failed hopen (Prod.ext rfl houtcome)).calls
  rw [hcalls, hinfo, Problem.shown_notices, List.map_map]
  rfl

end Session

/-- **Every failure reaches the reviewer, item for item.** Let a session be submitted that is not
shut, through any client and against any far side. What its write comes to is what comes back when
redirects were followed, and the first reply when that is no redirect. The write either comes back
as a success or fails in one of the ways of `Session.Failure`; and when it fails, the calls after
the write are the notices of that failure, in order, and at least one. At a service, an update of a
submission that is there and with which something is wrong is told of by the problems that
`Problem.find` states, in its order. -/
theorem failures_told (s : Session) (e : Executor) (hopen : ¬ s.Shut e) :
    (∀ (ω : Type) [Http.Peer ω] (d : Desk (Wire ω)),
      (∀ (sent : Outgoing) (peer : ω) (reply : Reply),
        d.remote.client.outgoing "PUT" s.coordinator.detailPath
          (some (.ofList (s.form.verdict s.mode s.submission).json)) = .ok sent →
        Peer.answer d.remote.peer sent = (peer, reply) → reply.IsLast →
        s.exchange d = .ok (sent.url.shownText, reply)) ∧
      (s.Answered d ∨ ∃ notices, s.Failure d notices) ∧
      ∀ notices, s.Failure d notices → notices ≠ [] ∧
        (s.submit e d).calls =
          .put s.coordinator.detailPath (s.form.verdict s.mode s.submission) ::
            notices.map .notify) ∧
    (∀ (d : Desk (Wire RunningService)) (target : String) (segment : List UInt8) (id : Int)
      (old : Submission),
      d.remote.client.Reaches s.coordinator.detailPath target (.submission segment) →
      Server.Names segment id → d.store.get id = .ok old →
      (s.form.verdict s.mode s.submission).Portable →
      Problem.find old (s.form.verdict s.mode s.submission) ≠ [] →
      (s.submit e d).calls =
        .put s.coordinator.detailPath (s.form.verdict s.mode s.submission) ::
          (Problem.find old (s.form.verdict s.mode s.submission)).map fun p =>
            .notify ⟨p.message, "error"⟩) := by
  constructor
  · intro ω _ d
    refine ⟨fun sent peer reply => Session.exchange_of_isLast, Session.answered_or_failure s d,
      fun notices hfailure => ?_⟩
    exact ⟨hfailure.ne_nil, hfailure.calls hopen⟩
  · intro d target segment id old hreach hnames hget hv hfind
    exact Session.calls_of_problems hopen hreach hnames hget hv hfind

/-! ## A review of a submission that has parts by now -/

/-- A session that was started before the submission got its parts: its form is one verdict. -/
def Session.beforeParts : Session :=
  { params := .twoParts
    submission := { id := 1, timeElapsed := -1 }
    mode := .single
    readOnly := false
    form := { status := .approved, feedback := "fine" }
    siblings := []
    siblingsError := none
    navigator := .locate [] "1" Route.defaultTemplate []
    coordinator := .make "/api/v1/submissions/1" "" ""
    attachmentsPath := "" }

/-- A desk whose client has a base that is no address. -/
def Desk.astray : Desk (Wire RunningService) :=
  { Desk.atTwoParts with remote := { Desk.atTwoParts.remote with client := ⟨":"⟩ } }

theorem failures_told_beforeParts :
    (Session.beforeParts.submit {} .atTwoParts).calls =
      [.put "/api/v1/submissions/1"
          { timeElapsed := -1, status := .approved, feedback := "fine" },
        .notify ⟨"timeElapsed must not be negative", "error"⟩,
        .notify ⟨"submission 1 is reviewed part by part", "error"⟩] ∧
    (Session.beforeParts.submit {} .astray).calls =
      [.put "/api/v1/submissions/1"
          { timeElapsed := -1, status := .approved, feedback := "fine" },
        .notify ⟨"create request: parse \":/api/v1/submissions/1\": missing protocol scheme",
          "error"⟩] := by
  have hopen : ¬ Session.beforeParts.Shut {} := by
    rintro (hbusy | hgate)
    · cases hbusy
    · revert hgate
      decide
  obtain ⟨hany, hserved⟩ := failures_told Session.beforeParts {} hopen
  constructor
  · have hpath : Endpoint.detailPath (Text.ofInt 1) =
        Session.beforeParts.coordinator.detailPath := by decide +kernel
    have hfound : Problem.find .twoParts
        (Session.beforeParts.form.verdict Session.beforeParts.mode Session.beforeParts.submission) =
          [.negativeTime, .partsExpected 1] := by decide
    have hmessage : (Problem.partsExpected 1).message =
        "submission 1 is reviewed part by part" := by decide +kernel
    have hcalls := hserved .atTwoParts _ _ 1 .twoParts
      (hpath ▸ Client.atOrigin_localhost.reaches_detail (isName_ofInt 1))
      (Server.names_ofInt (by decide) (by decide)) Store.twoParts_get
      ⟨by decide, by simp [Session.beforeParts, Form.verdict]⟩ (by rw [hfound]; simp)
    rw [hcalls, hfound, List.map_cons, List.map_cons, hmessage]
    rfl
  · have hunsent : Session.beforeParts.exchange Desk.astray =
        .error (.defect ":/api/v1/submissions/1" .noScheme) := by
      rfl
    have hmessage : (RequestError.defect ":/api/v1/submissions/1" .noScheme).message =
        "create request: parse \":/api/v1/submissions/1\": missing protocol scheme" := by
      decide +kernel
    have hcalls := ((hany RunningService .astray).2.2 _ (.unsent hunsent)).2
    rw [hcalls, hmessage]
    rfl

/-! ## A write that is sent elsewhere -/

/-- A far side that sends every write to another path, and answers whatever it is asked there. -/
structure Detour where

/-- The answer to a write: it says what is wrong, and where to go. -/
def Detour.redirect : Response :=
  { Server.refusal 303 ([.negativeTime].map Problem.notice) with location := some "/moved" }

instance : Http.Peer Detour where
  answer w sent :=
    (w, .answered (if sent.method = "PUT" then Detour.redirect else { status := 200 }))
  now _ := .zero

/-- A desk in front of it. -/
def Desk.detoured : Desk (Wire Detour) :=
  { remote := { client := .ofBase "http://localhost:8080", peer := {} } }

/-- A redirect with messages for the reviewer is followed like any other: the success at the place
that it leads to is told, and none of the messages. -/
theorem redirect_untold :
    (∃ sent, Desk.detoured.remote.client.outgoing "PUT" Session.beforeParts.coordinator.detailPath
        (some (.ofList (Session.beforeParts.form.verdict .single
          Session.beforeParts.submission).json)) = .ok sent ∧
      Peer.answer Desk.detoured.remote.peer sent =
        (Desk.detoured.remote.peer, .answered Detour.redirect)) ∧
    ¬(200 ≤ Detour.redirect.status ∧ Detour.redirect.status ≤ 299) ∧
    Refusal.messages Detour.redirect.body = [⟨"timeElapsed must not be negative", "error"⟩] ∧
    (Session.beforeParts.submit {} .detoured).calls =
      [.put "/api/v1/submissions/1" { timeElapsed := -1, status := .approved, feedback := "fine" },
        .notify ⟨"Review saved", "success"⟩, .refresh ""] := by
  have hopen : ¬ Session.beforeParts.Shut {} := by
    rintro (hbusy | hgate)
    · cases hbusy
    · revert hgate
      decide
  have hput : Session.beforeParts.put .detoured = (Desk.detoured.remote, .ok (some "")) := by rfl
  refine ⟨⟨_, rfl, rfl⟩, by decide, Problem.messages_body 303 [.negativeTime], ?_⟩
  have hcalls := (Session.submit_of_written hopen hput).1.calls
  rw [hcalls]
  decide

end ReviewQueue
