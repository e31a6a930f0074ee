import ReviewQueue.Proofs.Remote.Follow
import ReviewQueue.Proofs.Store.Sound

/-!
# An update through the client

A submission is read from a path, and a verdict on it is written to the same path. When both
succeed, and nothing else was written in between, the update was accepted by the submission that was
read, and the answer shows it as it is then.

* `Client.Finds` — the submission that answers for a path;
* `Client.write_accepted`, `Client.update_accepted` — a write that succeeds is an update of it, and
  so of the submission that was read;
* `Submission.shown_of_decode` — what the answer to a read is decoded to.
-/

namespace ReviewQueue

open Http Server

/-! ## Submissions as they are answered -/

/-- The body of an answer that shows a submission. -/
def Submission.body (s : Submission) : String := (jsonResponse 200 s.json?).body

theorem Submission.body_of_json {s : Submission} {t : List Char} (h : s.json? = some t) :
    s.body.toList = t ++ ['\n'] := by
  rw [Submission.body, h]
  exact String.toList_ofList

/-- An answer that can be read shows a submission with its raw fields in compact form, which are
lower than a text may be. -/
theorem Submission.shown_of_decode {s shown : Submission} (hs : s.Portable)
    (h : Json.decode? {} Submission.fill s.body.toList = some shown) :
    (∃ t, s.json? = some t) ∧ s.RawsWithin (Json.maxHeight - 1) ∧ shown = s.compacted := by
  cases hjson : s.json? with
  | none =>
      -- a submission without a JSON form is answered with nothing
      rw [Submission.body, hjson] at h
      cases h
  | some t =>
      rw [Submission.body_of_json hjson] at h
      obtain rfl := Submission.eq_of_decode hs hjson Json.blanks_newline h
      have hraws := (Submission.portable_of_decode h).2.within (by decide)
      exact ⟨⟨t, rfl⟩, Submission.rawsWithin_of_compacted hjson hraws, rfl⟩

theorem Submission.decode_body {s : Submission} (hs : s.Portable)
    (hraws : s.RawsWithin (Json.maxHeight - 1)) {t : List Char} (h : s.json? = some t) :
    Json.decode? {} Submission.fill s.body.toList = some s.compacted := by
  rw [Submission.body_of_json h]
  exact (Submission.prints hs hraws (by decide) (by decide) h).decode_append (by decide)
    Json.blanks_newline

/-- A review does not take the JSON form away. -/
theorem Submission.exists_json_reviewed {s : Submission} {t : List Char} (h : s.json? = some t)
    (now : Moment) (v : Verdict) : ∃ t, (s.reviewed now v).json? = some t := by
  have hraws := Submission.rawsWithin_of_json h
  have hcreated : s.createdAt.IsNear := (Submission.isNear_of_json h).1
  exact Submission.exists_json (s := s.reviewed now v) { hraws with }
    ⟨hcreated, now.kept.isNear⟩

/-! ## Reading and writing at one path -/

theorem Server.readId_of_names {segment : List UInt8} {id : Int} (h : Names segment id) :
    readId segment = .ok id := by
  obtain ⟨text, htext, hnumeral⟩ := h
  obtain ⟨hread, hpos⟩ := (Text.toInt?_pos_iff text id).mpr hnumeral
  rw [readId, htext]
  simp only [Option.bind_some, hread, hpos, if_true]

theorem Server.answerGet_of_names {store : Store} {segment : List UInt8} {id : Int}
    {s : Submission} (hnamed : Names segment id) (hget : store.get id = .ok s) :
    answerGet store segment = jsonResponse 200 s.json? := by
  simp only [answerGet, readId_of_names hnamed, hget]

/-- Requests for a path are answered by the submission with an id. -/
def Client.Finds (c : Client) (path : String) (id : Int) : Prop :=
  ∃ url segment, c.landing? path = some url ∧
    resource? url.requestTarget = some (.submission segment) ∧ Names segment id

/-- A path finds one submission only. -/
theorem Client.Finds.unique {c : Client} {path : String} {id id' : Int} (h : c.Finds path id)
    (h' : c.Finds path id') : id = id' := by
  obtain ⟨url, segment, hlanding, hresource, hnamed⟩ := h
  obtain ⟨url', segment', hlanding', hresource', hnamed'⟩ := h'
  obtain rfl := Option.some.inj (hlanding.symm.trans hlanding')
  obtain rfl := Resource.submission.inj (Option.some.inj (hresource.symm.trans hresource'))
  exact Except.ok.inj ((readId_of_names hnamed).symm.trans (readId_of_names hnamed'))

section Exchange

variable {c : Client} {r r' w w' : RunningService} {method path : String} {data : Option String}

/-- A path with an answer that shows a submission is not the one of the report. -/
theorem Client.not_isReport_of_decoded (hcall : IsCall method) {body : Option String}
    (hsend : c.send w method path body = (w', .ok data)) {s : Submission}
    (hs : Json.decode? {} Submission.fill (data.getD "").toList = some s) {url : Url}
    (hurl : c.landing? path = some url) : ¬ IsReport url.requestTarget := by
  intro hreport
  obtain ⟨url', before, response, hlanding, hclean, -, hanswer, hok, rfl⟩ := send_eq_ok hcall hsend
  obtain rfl := Option.some.inj (hurl.symm.trans hlanding)
  have hnone := resource?_of_isReport hreport
  have hcases := answer_cases before.service before.clock.now
    ⟨method, url.requestTarget, body.getD ""⟩ hcall hclean
  simp only [RunningService.answer, Prod.mk.injEq] at hanswer
  obtain ⟨-, rfl⟩ := hanswer
  rw [Option.getD_some] at hs
  generalize answer before.service before.clock.now _ = result at hcases hok hs
  cases hcases with
  | report =>
      simp only [reportResponse, report_not_decoded] at hs
      cases hs
  | missing => simp [plain] at hok
  | refused => simp [plain] at hok
  | resource counters hr =>
      rw [hnone] at hr
      cases hr

/-- A read that succeeds shows the submission that its path finds. -/
theorem Client.read_of_finds {id : Int} (h : c.Finds path id)
    (hread : c.send r "GET" path none = (r', .ok data)) :
    ∃ s, r.service.store.get id = .ok s ∧ data = some s.body := by
  obtain ⟨url, segment, hlanding, hresource, hnamed⟩ := h
  obtain ⟨url', before, response, hlanding', hclean, hbefore, hanswer, hok, rfl⟩ :=
    send_eq_ok (.inl rfl) hread
  obtain rfl := Option.some.inj (hlanding.symm.trans hlanding')
  obtain ⟨counters, hget⟩ := answer_resource before.service before.clock.now
    ⟨"GET", url.requestTarget, ""⟩ (.inl rfl) hclean hresource List.mem_cons_self
  simp only [RunningService.answer, Option.getD_none, Prod.mk.injEq] at hanswer
  obtain ⟨-, rfl⟩ := hanswer
  rw [hget] at hok ⊢
  rw [← hbefore.store]
  cases hstored : before.service.store.get id with
  | ok s =>
      refine ⟨s, rfl, ?_⟩
      simp [answerResource, answerGet_of_names hnamed hstored, Submission.body]
  | error e =>
      -- a read that fails is no success
      refine absurd hok ?_
      simp only [answerResource, answerGet, readId_of_names hnamed, hstored]
      exact storeFailure_fails e

/-- An update that was accepted by the submission with an id. -/
structure UpdateAccepted (store after : Store) (clock : Clock) (saved : Option String)
    (body : String) (id : Int) (v : Verdict) (old : Submission) (now : Moment) : Prop where
  found : store.get id = .ok old
  decoded : Json.decodeFirst? {} Verdict.fill body.toList = some v
  judged : Problem.find old v = []
  written : after = store.reviewed now id v
  timed : ∃ k, now.time = clock.time k
  saved : saved = some (old.reviewed now v).body

/-- A write that succeeds is an update of the submission that its path finds. -/
theorem Client.write_accepted {body : String} {saved : Option String}
    (hwrite : c.send w "PUT" path (some body) = (w', .ok saved)) (hclock : w.clock.Sound)
    (hnot : ∀ {url}, c.landing? path = some url → ¬ IsReport url.requestTarget) :
    ∃ id v old now, c.Finds path id ∧
      UpdateAccepted w.service.store w'.service.store w.clock saved body id v old now := by
  obtain ⟨url, start, answered, hlanding, hclean, hstart, hanswered, hok, rfl⟩ :=
    send_eq_ok (.inr rfl) hwrite
  simp only [RunningService.answer, Option.getD_some, Prod.mk.injEq] at hanswered
  obtain ⟨rfl, rfl⟩ := hanswered
  obtain ⟨segment, hresource, hafter, hstatus, hbody⟩ :=
    (put_ok_cases _ _ ⟨"PUT", url.requestTarget, body⟩ rfl hclean hok).resolve_left (hnot hlanding)
  let now : Moment := ⟨start.clock.now, hclock.of_time hstart.time _⟩
  obtain ⟨id, v, old, haccepted⟩ : ∃ id v s, Accepted start.service.store now segment
      body id v s (answerReview start.service now segment body).1.store
      (answerReview start.service now segment body).2 := by
    obtain ⟨-, haccepted⟩ | ⟨-, hrefused⟩ :=
      answerReview_cases start.service now segment body
    · exact haccepted
    · -- a refusal is no success
      rw [hstatus] at hok
      change 200 ≤ (answerReview start.service now segment body).2.status ∧ _ at hok
      generalize (answerReview start.service now segment body).2.status = status at hok hrefused
      cases hrefused <;> omega
  have hfound := haccepted.found
  rw [hstart.store] at hfound
  refine ⟨id, v, old, now, ⟨url, segment, hlanding, hresource, haccepted.named⟩,
    { found := hfound
      decoded := haccepted.decoded
      judged := haccepted.judged
      written := ?_
      timed := ⟨start.clock.readings, by rw [← hstart.time]; rfl⟩
      saved := ?_ }⟩
  · rw [hafter, haccepted.written, hstart.store]
  · rw [hbody, haccepted.answered, answerGet_of_names haccepted.named haccepted.shown,
      Submission.body]

/-- **An update reaches the submission that was read.** -/
theorem Client.update_accepted {body : String} {saved : Option String} {s : Submission}
    (hread : c.send r "GET" path none = (r', .ok data))
    (hs : Json.decode? {} Submission.fill (data.getD "").toList = some s)
    (hwrite : c.send w "PUT" path (some body) = (w', .ok saved))
    (hstore : w.service.store = r.service.store) (hclock : w.clock.Sound) :
    ∃ id v old now, data = some old.body ∧
      UpdateAccepted r.service.store w'.service.store w.clock saved body id v old now := by
  obtain ⟨id, v, old, now, hfinds, hupdate⟩ :=
    write_accepted hwrite hclock (not_isReport_of_decoded (.inl rfl) hread hs)
  obtain ⟨shown, hget, rfl⟩ := read_of_finds hfinds hread
  rw [hstore] at hupdate
  obtain rfl := Except.ok.inj (hget.symm.trans hupdate.found)
  exact ⟨id, v, shown, now, rfl, hupdate⟩

end Exchange

end ReviewQueue
