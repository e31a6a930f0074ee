import ReviewQueue.Proofs.Http.Target
import ReviewQueue.Proofs.Remote.Follow

/-!
# Clients at the origin of a service

A client whose base is a scheme and an authority asks for every path of names as it is. Such a
request is answered at once by the resource that the path stands for.

* `Url.read_origin` — the URL of a path of names;
* `Client.AtOrigin.reaches` — a path of names reaches its resource;
* `Client.send_of_reaches` — what comes of a request that reaches a resource.
-/

namespace ReviewQueue

open Http

namespace Url

/-- A character of a URL that is neither a control character nor the mark of a query or a
fragment. -/
def IsQuiet (c : Char) : Prop := c ≠ '?' ∧ c ≠ '#' ∧ 0x20 ≤ c.toNat ∧ c.toNat ≠ 0x7F

instance (c : Char) : Decidable (IsQuiet c) := inferInstanceAs (Decidable (_ ∧ _))

theorem isQuiet_of_isNameChar {c : Char} (h : isNameChar c = true) : IsQuiet c :=
  of_decide_eq_true (forall_isNameChar (p := fun c => decide (IsQuiet c)) (by decide) h)

theorem isQuiet_of_isSchemeChar {c : Char} (h : isSchemeChar c = true) : IsQuiet c := by
  simp only [isSchemeChar, Bool.or_eq_true, beq_iff_eq] at h
  rcases h with ((h | rfl) | rfl) | rfl
  · exact isQuiet_of_isNameChar (by simp [isNameChar, h])
  · decide
  · decide
  · decide

/-- A scheme and an authority. -/
structure IsOrigin (base : List Char) (scheme host : List Char) (authority : Authority) :
    Prop where
  text : base = scheme ++ ':' :: '/' :: '/' :: host
  first : ∃ c rest, scheme = c :: rest ∧ c.isAlpha = true
  schemeChars : ∀ c ∈ scheme, isSchemeChar c = true
  hostChars : ∀ c ∈ host, c ≠ '/' ∧ IsQuiet c
  reads : Authority.read host = .ok authority

section Origin

variable {base scheme host : List Char} {authority : Authority} {names : List String}

theorem splitScheme_origin (h : IsOrigin base scheme host authority) (rest : List Char) :
    splitScheme (base ++ rest) =
      .ok (scheme.map Char.toLower, '/' :: '/' :: host ++ rest) := by
  obtain ⟨c, tail, hscheme, halpha⟩ := h.first
  have hcolon : c ≠ ':' := by
    rintro rfl
    revert halpha
    decide
  have htext : base ++ rest = scheme ++ ':' :: ('/' :: '/' :: host ++ rest) := by
    rw [h.text]
    simp
  -- the scheme ends at the first colon, which no scheme has inside
  have hdrop : (base ++ rest).dropWhile isSchemeChar = ':' :: ('/' :: '/' :: host ++ rest) := by
    rw [htext, List.dropWhile_append_of_pos h.schemeChars]
    rfl
  have htake : (base ++ rest).takeWhile isSchemeChar = scheme := by
    rw [htext, List.takeWhile_append_of_pos h.schemeChars, List.takeWhile_cons_of_neg (by decide),
      List.append_nil]
  have hhead : base ++ rest = c :: (tail ++ ':' :: ('/' :: '/' :: host ++ rest)) := by
    rw [htext, hscheme]
    rfl
  rw [hhead] at hdrop htake ⊢
  simp only [splitScheme, hcolon, if_false, hdrop, halpha, if_true, htake]

theorem brokenEscape?_of_not_mem {s : List Char} (h : '%' ∉ s) :
    Authority.brokenEscape? s = none := by
  induction s with
  | nil => rfl
  | cons c s ih =>
      obtain ⟨hc, hs⟩ := not_or.mp (mt List.mem_cons.mpr h)
      rw [Authority.brokenEscape?, if_neg (by simp [Ne.symm hc]), ih hs]

theorem readHierarchy_origin (h : IsOrigin base scheme host authority) {s : List Char}
    (hs : s ≠ []) (hnames : ∀ n ∈ names, IsName n) (hne : names ≠ []) :
    readHierarchy s ('/' :: '/' :: host ++ Target.ofNames names) =
      .ok { scheme := s, authority := some authority, path := Target.ofNames names } := by
  obtain ⟨n, rest, rfl⟩ := List.exists_cons_of_ne_nil hne
  have hslash : ∀ c ∈ host, (c != '/') = true := fun c hc => by simpa using (h.hostChars c hc).1
  -- the host ends at the first slash, with which the path begins
  have htake : (host ++ Target.ofNames (n :: rest)).takeWhile (· != '/') = host := by
    rw [List.takeWhile_append_of_pos hslash, Target.ofNames, List.flatMap_cons, List.cons_append,
      List.takeWhile_cons_of_neg (by decide), List.append_nil]
  have hdrop : (host ++ Target.ofNames (n :: rest)).dropWhile (· != '/') =
      Target.ofNames (n :: rest) := by
    rw [List.dropWhile_append_of_pos hslash]
    rfl
  have hempty : s.isEmpty = false := by simpa using hs
  have hescapes : Authority.checkEscapes (Target.ofNames (n :: rest)) = .ok () := by
    rw [Authority.checkEscapes,
      brokenEscape?_of_not_mem (Target.not_mem_ofNames (by decide) (by decide) hnames)]
  simp only [List.cons_append, readHierarchy, hempty, Bool.false_and, Bool.false_eq_true, if_false,
    htake, hdrop, h.reads, hescapes, bind, Except.bind, pure, Except.pure]

theorem isQuiet_origin (h : IsOrigin base scheme host authority)
    (hnames : ∀ n ∈ names, IsName n) : ∀ c ∈ base ++ Target.ofNames names, IsQuiet c := by
  rw [h.text]
  simp only [List.forall_mem_append, List.forall_mem_cons]
  refine ⟨⟨fun c hc => isQuiet_of_isSchemeChar (h.schemeChars c hc), by decide, by decide,
    by decide, fun c hc => (h.hostChars c hc).2⟩, fun c hc => ?_⟩
  rcases Target.mem_ofNames hnames hc with rfl | hname
  · decide
  · exact isQuiet_of_isNameChar hname

/-- The URL of a path of names has no fragment. -/
theorem takeWhile_origin (h : IsOrigin base scheme host authority)
    (hnames : ∀ n ∈ names, IsName n) :
    (base ++ Target.ofNames names).takeWhile (· != '#') = base ++ Target.ofNames names :=
  List.takeWhile_eq_self_iff.mpr fun c hc => by simpa using (isQuiet_origin h hnames c hc).2.1

/-- The URL of a path of names. -/
theorem read_origin (h : IsOrigin base scheme host authority) (hnames : ∀ n ∈ names, IsName n)
    (hne : names ≠ []) :
    read (base ++ Target.ofNames names) =
      .ok { scheme := scheme.map Char.toLower
            authority := some authority
            path := Target.ofNames names } := by
  have hquiet := isQuiet_origin h hnames
  have hmain := takeWhile_origin h hnames
  have hfragment : (base ++ Target.ofNames names).dropWhile (· != '#') = [] :=
    List.dropWhile_eq_nil_iff.mpr fun c hc => by simpa using (hquiet c hc).2.1
  have hcontrol : (base ++ Target.ofNames names).any
      (fun c => c.toNat < 0x20 || c.toNat = 0x7F) = false := by
    rw [List.any_eq_false]
    intro c hc
    obtain ⟨-, -, hlow, hhigh⟩ := hquiet c hc
    simp only [Bool.or_eq_true, decide_eq_true_eq]
    omega
  have hrest : ∀ c ∈ '/' :: '/' :: host ++ Target.ofNames names, (c != '?') = true := by
    intro c hc
    have hmem : c ∈ base ++ Target.ofNames names := by
      rw [h.text]
      simp only [List.cons_append, List.append_assoc, List.mem_append, List.mem_cons] at hc ⊢
      tauto
    simpa using (hquiet c hmem).1
  have hscheme : scheme.map Char.toLower ≠ [] := by
    obtain ⟨c, tail, rfl, -⟩ := h.first
    simp
  simp only [read, hmain, hcontrol, Bool.false_eq_true, if_false, splitScheme_origin h,
    List.takeWhile_eq_self_iff.mpr hrest, List.dropWhile_eq_nil_iff.mpr hrest,
    readHierarchy_origin h hscheme hnames hne, hfragment, bind, Except.bind, pure, Except.pure]
  rfl

/-- A path of names is asked for as it is. -/
theorem requestTarget_ofNames {u : Url} (hpath : u.path = Target.ofNames names)
    (hquery : u.query = []) (hnames : ∀ n ∈ names, IsName n) (hne : names ≠ []) :
    u.requestTarget = .ofList (Target.ofNames names) := by
  have hchars : (Target.ofNames names).all isPathChar = true := by
    refine List.all_eq_true.mpr fun c hc => ?_
    rcases Target.mem_ofNames hnames hc with rfl | hname
    · decide
    · exact forall_isNameChar (by decide) hname
  have htarget : u.target = Target.ofNames names := by
    rw [target, hpath, hquery, encodePath, if_pos hchars, ite_self, List.append_nil]
  obtain ⟨n, rest, rfl⟩ := List.exists_cons_of_ne_nil hne
  rw [requestTarget, htarget]
  rfl

end Origin
end Url

namespace Client

/-- A base that is a scheme and an authority, such as `http://localhost:8080`. -/
def AtOrigin (c : Client) : Prop :=
  ∃ scheme host authority, Url.IsOrigin c.base.toList scheme host authority

theorem atOrigin_localhost : AtOrigin ⟨"http://localhost:8080"⟩ :=
  ⟨"http".toList, "localhost:8080".toList, { host := Text.toBytes "localhost:8080".toList },
    { text := by decide
      first := ⟨'h', "ttp".toList, by decide, by decide⟩
      schemeChars := by simp [Url.isSchemeChar]
      hostChars := by simp [Url.IsQuiet]
      reads := by rfl }⟩

/-- A path that is answered by a resource at once. -/
structure Reaches (c : Client) (path target : String) (r : Server.Resource) : Prop where
  url : ∃ url, c.url? path = some url ∧ url.requestTarget = target
  clean : Target.IsClean target
  resource : Server.resource? target = some r

/-- A path of names reaches its resource. -/
theorem AtOrigin.reaches {c : Client} (h : c.AtOrigin) {names : List String}
    (hnames : ∀ n ∈ names, IsName n) (hne : names ≠ []) {r : Server.Resource}
    (hr : Server.resource? (.ofList (Target.ofNames names)) = some r) :
    c.Reaches (.ofList (Target.ofNames names)) (.ofList (Target.ofNames names)) r := by
  obtain ⟨scheme, host, authority, horigin⟩ := h
  have hread := Url.read_origin horigin hnames hne
  have hmethod : (!(wireMethod "GET").toList.all isMethodChar) = false := by decide
  have hurl : c.url? (.ofList (Target.ofNames names)) =
      some { scheme := scheme.map Char.toLower
             authority := some authority
             path := Target.ofNames names } := by
    rw [url?, outgoing, readUrl]
    simp only [String.toList_append, String.toList_ofList, Url.takeWhile_origin horigin hnames,
      hread, hmethod, Bool.false_eq_true, if_false]
    rfl
  refine ⟨⟨_, hurl, Url.requestTarget_ofNames rfl rfl hnames hne⟩, ?_, hr⟩
  rw [Target.IsClean, Target.path_ofNames hnames]
  exact Target.isClean_ofNames hne hnames

/-- A request with a clean target is answered at once. -/
theorem send_of_clean {c : Client} {path method : String} {sent : Outgoing}
    (hout : c.outgoing "GET" path none = .ok sent) (hcall : Server.IsCall method)
    (hclean : Target.IsClean sent.url.requestTarget) (w : RunningService) (body : Option String) :
    c.send w method path body =
      ((w.answer ⟨method, sent.url.requestTarget, body.getD ""⟩).1,
        readReply method path sent.url.shownText
          (.answered (w.answer ⟨method, sent.url.requestTarget, body.getD ""⟩).2)) := by
  have hfollow := follow_of_clean w { method, url := sent.url, body } 9 "" hcall hclean
  rw [send, outgoing_of_isCall hcall, hout]
  simp only [Except.map]
  rw [hfollow]
  rfl

theorem eq_ok_of_toOption {outcome : Outcome} {data : Option String}
    (h : outcome.toOption = some data) : outcome = .ok data := by
  cases outcome with
  | error e => cases h
  | ok other => exact congrArg Except.ok (Option.some.inj h)

/-- A request that reaches a resource is answered by it, and the answer is the outcome. -/
theorem send_eq_of_reaches {c : Client} {path target method : String} {r : Server.Resource}
    (h : c.Reaches path target r) (hcall : Server.IsCall method) (hmethod : method ∈ r.methods)
    (w : RunningService) (body : Option String) :
    let answer := Server.answerResource w.service w.clock.now ⟨method, target, body.getD ""⟩ r
    ∃ counters, c.send w method path body =
      (⟨{ answer.1 with counters }, w.clock.tick⟩,
        if 200 ≤ answer.2.status ∧ answer.2.status ≤ 299 then .ok (some answer.2.body)
        else .error (.ofAnswer answer.2.status answer.2.body)) := by
  obtain ⟨⟨url, hurl, rfl⟩, hclean, hresource⟩ := h
  obtain ⟨sent, hsent, rfl⟩ := Option.map_eq_some_iff.mp hurl
  have hout : c.outgoing "GET" path none = .ok sent := by
    cases hout : c.outgoing "GET" path none with
    | error e => rw [hout] at hsent; cases hsent
    | ok other => rw [hout] at hsent; exact congrArg Except.ok (Option.some.inj hsent)
  obtain ⟨counters, hanswer⟩ := Server.answer_resource w.service w.clock.now
    ⟨method, sent.url.requestTarget, body.getD ""⟩ hcall hclean hresource hmethod
  refine ⟨counters, ?_⟩
  rw [send_of_clean hout hcall hclean, RunningService.answer, hanswer]
  rfl

/-- What comes of a request that reaches a resource. -/
theorem send_of_reaches {c : Client} {path target method : String} {r : Server.Resource}
    (h : c.Reaches path target r) (hcall : Server.IsCall method) (hmethod : method ∈ r.methods)
    (w : RunningService) (body : Option String) :
    let answer := Server.answerResource w.service w.clock.now ⟨method, target, body.getD ""⟩ r
    (c.send w method path body).1.service.store = answer.1.store ∧
      (c.send w method path body).1.clock = w.clock.tick ∧
      (c.send w method path body).2.toOption =
        if 200 ≤ answer.2.status ∧ answer.2.status ≤ 299 then some (some answer.2.body)
        else none := by
  obtain ⟨counters, hsend⟩ := send_eq_of_reaches h hcall hmethod w body
  rw [hsend]
  refine ⟨rfl, rfl, ?_⟩
  split <;> rfl

end Client
end ReviewQueue
