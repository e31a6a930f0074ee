import ReviewQueue.Proofs.Server.Answer

/-!
# Requests that are followed

The client follows the redirects of a running service. Where a request ends up depends on its URL
alone: `Url.landing?` says where, for reads and writes alike. On the way nothing is written.

* `Client.send_eq_ok` — a request that succeeds was answered where its path lands;
* `follow_get_same` — a read leaves the store as it is, wherever it is led.
-/

namespace ReviewQueue

open Http

/-- Where the redirect of a URL leads. -/
def Url.cleaned? (u : Url) : Option Url :=
  (Client.location? (Server.redirect ⟨"GET", u.requestTarget, ""⟩
    (Target.clean (Target.path u.requestTarget)))).bind fun location =>
      (Client.readUrl location).toOption.map u.resolve

/-- Where a request for a URL ends up when at most `fuel` requests are made. -/
def Url.landing? : Nat → Url → Option Url
  | 0, _ => none
  | fuel + 1, u =>
    if Target.IsClean u.requestTarget then some u else u.cleaned?.bind (landing? fuel)

namespace RunningService

/-- What reads and redirects leave alone. -/
structure Same (a b : RunningService) : Prop where
  store : b.service.store = a.service.store
  time : b.clock.time = a.clock.time

theorem Same.refl (a : RunningService) : Same a a := ⟨rfl, rfl⟩

theorem Same.trans {a b c : RunningService} (h : Same a b) (h' : Same b c) : Same a c :=
  ⟨h'.store.trans h.store, h'.time.trans h.time⟩

end RunningService

namespace Client

/-! ## Redirects -/

/-- The service redirects so that the method and the body stay. -/
theorem redirected_of_redirect (sent : Outgoing) (url : Url) :
    redirected sent 307 url = { sent with url := sent.url.resolve url } := by
  unfold redirected
  exact if_pos (.inl rfl)

section Follow

variable (w : RunningService) (sent : Outgoing) (fuel : Nat) (location : String)

/-- A request with a clean target is answered at once. -/
theorem follow_of_clean (h : Server.IsCall sent.method)
    (hclean : Target.IsClean sent.url.requestTarget) :
    follow (fuel + 1) location w sent =
      ((w.answer sent.request).1, sent.url.shownText, .answered (w.answer sent.request).2) := by
  have hlocation : (w.answer sent.request).2.location = none :=
    Server.answer_location w.service w.clock.now sent.request h hclean
  have hnone : location? (w.answer sent.request).2 = none := by
    rw [location?, hlocation]
    exact ite_self none
  rw [follow]
  simp only [Peer.answer, hnone]

/-- A request with any other target is led on, and nothing else happens. Where it cannot be, no
answer is a success. -/
theorem follow_of_not_clean (h : Server.IsCall sent.method)
    (hclean : ¬ Target.IsClean sent.url.requestTarget) :
    ∃ next, w.Same next ∧
      match sent.url.cleaned? with
      | some url => ∃ location', follow (fuel + 1) location w sent =
          follow fuel location' next { sent with url }
      | none => ∃ named reply, follow (fuel + 1) location w sent = (next, named, reply) ∧
          ∀ r, reply = .answered r → r.status = 307 := by
  obtain ⟨counters, response, hanswer, hstatus, hlocation⟩ :=
    Server.answer_of_not_clean w.service w.clock.now sent.request h hclean
  have hsame : location? response = location? (Server.redirect ⟨"GET", sent.url.requestTarget, ""⟩
      (Target.clean (Target.path sent.url.requestTarget))) := by
    rw [location?, location?, hstatus, hlocation]
    rfl
  refine ⟨(w.answer sent.request).1, ⟨?_, rfl⟩, ?_⟩
  · rw [RunningService.answer, hanswer]
  · rw [Url.cleaned?, ← hsame, follow]
    simp only [Peer.answer, RunningService.answer, hanswer]
    cases location? response with
    | none => exact ⟨_, _, rfl, fun r heq => Reply.answered.inj heq ▸ hstatus⟩
    | some location' =>
        simp only [Option.bind_some]
        cases readUrl location' with
        | error d => exact ⟨_, _, rfl, fun r heq => nomatch heq⟩
        | ok url =>
            simp only [Except.toOption, Option.map_some]
            rw [hstatus, redirected_of_redirect]
            exact ⟨_, rfl⟩

variable {w sent fuel location}

/-- A request that succeeds was answered where its URL lands. -/
theorem follow_eq_answered {w' : RunningService} {named : String} {r : Response}
    (h : Server.IsCall sent.method)
    (hfollow : follow fuel location w sent = (w', named, .answered r))
    (hok : 200 ≤ r.status ∧ r.status ≤ 299) :
    ∃ url before, sent.url.landing? fuel = some url ∧ Target.IsClean url.requestTarget ∧
      w.Same before ∧ before.answer { sent with url }.request = (w', r) := by
  induction fuel generalizing w sent location with
  | zero => cases hfollow
  | succ fuel ih =>
      by_cases hclean : Target.IsClean sent.url.requestTarget
      · rw [follow_of_clean w sent fuel location h hclean] at hfollow
        cases hfollow
        exact ⟨_, w, by rw [Url.landing?, if_pos hclean], hclean, .refl w, rfl⟩
      · obtain ⟨next, hsame, hnext⟩ := follow_of_not_clean w sent fuel location h hclean
        cases hcleaned : sent.url.cleaned? with
        | none =>
            -- a redirect that cannot be followed is no success
            simp only [hcleaned] at hnext
            obtain ⟨named', reply, heq, hstatus⟩ := hnext
            rw [heq] at hfollow
            cases hfollow
            have := hstatus r rfl
            omega
        | some url =>
            simp only [hcleaned] at hnext
            obtain ⟨location', heq⟩ := hnext
            rw [heq] at hfollow
            have hcall : Server.IsCall ({ sent with url } : Outgoing).method := h
            obtain ⟨landed, before, hlanding, hlanded, hbefore, hanswer⟩ := ih hcall hfollow
            exact ⟨landed, before, by simpa [Url.landing?, hclean, hcleaned] using hlanding,
              hlanded, hsame.trans hbefore, hanswer⟩

/-- A read leaves the store as it is, wherever it is led. -/
theorem follow_get_same (h : sent.method = "GET") :
    w.Same (follow fuel location w sent).1 := by
  induction fuel generalizing w sent location with
  | zero => exact .refl w
  | succ fuel ih =>
      by_cases hclean : Target.IsClean sent.url.requestTarget
      · rw [follow_of_clean w sent fuel location (.inl h) hclean]
        exact ⟨Server.answer_get_store w.service w.clock.now sent.request h, rfl⟩
      · obtain ⟨next, hsame, hnext⟩ := follow_of_not_clean w sent fuel location (.inl h) hclean
        cases hcleaned : sent.url.cleaned? with
        | none =>
            simp only [hcleaned] at hnext
            obtain ⟨named, reply, heq, -⟩ := hnext
            rw [heq]
            exact hsame
        | some url =>
            simp only [hcleaned] at hnext
            obtain ⟨location', heq⟩ := hnext
            have hget : ({ sent with url } : Outgoing).method = "GET" := h
            rw [heq]
            exact hsame.trans (ih hget)

end Follow

/-! ## Requests for a path -/

/-- The URL of a path under the base. -/
def url? (c : Client) (path : String) : Option Url :=
  (c.outgoing "GET" path none).toOption.map Outgoing.url

/-- Where requests for a path end up. -/
def landing? (c : Client) (path : String) : Option Url :=
  (c.url? path).bind (Url.landing? 10)

theorem outgoing_of_isCall {c : Client} {method : String} (h : Server.IsCall method)
    (path : String) (body : Option String) :
    c.outgoing method path body =
      (c.outgoing "GET" path none).map fun sent => { method, url := sent.url, body } := by
  have hwire : wireMethod method = method ∧ method.toList.all isMethodChar = true := by
    rcases h with rfl | rfl <;> decide
  have hget : wireMethod "GET" = "GET" ∧ "GET".toList.all isMethodChar = true := by decide
  simp only [outgoing, hwire, hget, Bool.not_true, Bool.false_eq_true, if_false]
  cases readUrl (c.base ++ path) <;> rfl

/-- A request that succeeds was answered where its path lands. -/
theorem send_eq_ok {c : Client} {w w' : RunningService} {method path : String}
    {body data : Option String} (h : Server.IsCall method)
    (hsend : c.send w method path body = (w', .ok data)) :
    ∃ url before r, c.landing? path = some url ∧ Target.IsClean url.requestTarget ∧
      w.Same before ∧
      before.answer { method, target := url.requestTarget, body := body.getD "" } = (w', r) ∧
      (200 ≤ r.status ∧ r.status ≤ 299) ∧ data = some r.body := by
  unfold send at hsend
  rw [outgoing_of_isCall h] at hsend
  cases hout : c.outgoing "GET" path none with
  | error e => simp [hout, Except.map] at hsend
  | ok sent =>
      simp only [hout, Except.map] at hsend
      cases hfollow : follow 10 "" w { method, url := sent.url, body } with
      | mk after rest =>
          obtain ⟨named, reply⟩ := rest
          rw [hfollow] at hsend
          simp only [Prod.mk.injEq] at hsend
          obtain ⟨rfl, hread⟩ := hsend
          cases reply with
          | lost reason => cases hread
          | cutOff reason => cases hread
          | answered r =>
              simp only [readReply] at hread
              split at hread
              · rename_i hok
                cases hread
                have hcall : Server.IsCall ({ method, url := sent.url, body } : Outgoing).method :=
                  h
                obtain ⟨url, before, hlanding, hclean, hsame, hanswer⟩ :=
                  follow_eq_answered hcall hfollow hok
                refine ⟨url, before, r, ?_, hclean, hsame, hanswer, hok, rfl⟩
                rw [landing?, url?, hout]
                exact hlanding
              · cases hread

end Client
end ReviewQueue
