import ReviewQueue.Proofs.Review.Effects
import ReviewQueue.Proofs.Review.Recorded
import ReviewQueue.Proofs.Route.Endpoint

/-!
# Lists that are up to date

The list of a batch is fetched when it is not in the cache, and again after each save. A desk with
an up-to-date list has done so, counting the fetches that are still to be run, and has the latest
answer in its cache; this holds as long as every answer has entries, and all that a review does to a
desk keeps it.

* `Siblings.resolve_of_cached`, `Siblings.resolve_of_fetched`, `Siblings.resolve_of_failed` — how
  the siblings are found;
* `Desk.UpToDate.fetched`, `Desk.UpToDate.settle`, `Desk.UpToDate.saved` — what is kept;
* `Session.upToDate_of_mount`, `Session.upToDate_of_submit` — the two ends of a review.
-/

namespace ReviewQueue

open RemoteCall

/-! ## How the siblings are found -/

namespace Siblings

theorem cached?_eq_some_iff (cache : Cache) (key : String) (items : List (Option Summary)) :
    cached? cache key = some items ↔
      key ≠ "" ∧ items ≠ [] ∧ ofData? (cache.cached key).data = some items := by
  unfold cached?
  by_cases hkey : key = ""
  · simp [hkey]
  · rw [if_neg hkey]
    rcases ofData? (cache.cached key).data with _ | _ | ⟨item, rest⟩
    · simp
    · simp
    · simp only [Option.some.injEq, ne_eq, hkey, not_false_eq_true, true_and]
      exact ⟨fun h => h ▸ ⟨List.cons_ne_nil _ _, rfl⟩, fun h => h.2⟩

/-- A list is not taken from the cache when there is no key for it, or when what is cached is
missing, malformed or empty. -/
theorem cached?_eq_none_iff (cache : Cache) (key : String) :
    cached? cache key = none ↔
      key = "" ∨ ∀ items, ofData? (cache.cached key).data = some items → items = [] := by
  rw [Option.eq_none_iff_forall_ne_some]
  simp only [ne_eq, cached?_eq_some_iff]
  by_cases hkey : key = ""
  · simp [hkey]
  · simp only [hkey, not_false_eq_true, true_and, false_or, not_and]
    exact forall_congr' fun items => ⟨fun h hdata => by_contra fun hne => h hne hdata,
      fun h hne hdata => hne (h hdata)⟩

variable [Remote ω] {d : Desk ω} {key path : String}

theorem resolve_of_cached {items : List (Option Summary)} (h : cached? d.cache key = some items) :
    resolve d key path = (d, items, none) := by
  rw [resolve, h]

theorem resolve_of_nowhere (h : cached? d.cache key = none) : resolve d key "" = (d, [], none) := by
  rw [resolve, h]
  rfl

theorem resolve_of_fetched (h : cached? d.cache key = none) (hpath : path ≠ "")
    {data : Option String} (hfetch : (Remote.fetch d.remote path).2 = .ok data) :
    resolve d key path = ((d.get path).1, (ofData? data).getD [], none) := by
  obtain ⟨herror, hdata⟩ := Desk.get_of_fetched hfetch
  simp only [resolve, h, if_neg hpath, herror, hdata]

theorem resolve_of_failed (h : cached? d.cache key = none) (hpath : path ≠ "") {e : RequestError}
    (hfetch : (Remote.fetch d.remote path).2 = .error e) :
    resolve d key path = ((d.get path).1, [], some (.during "fetch sibling list" e)) := by
  simp only [resolve, h, if_neg hpath, Desk.error_of_failed hfetch]

/-- Where the siblings are not cached, they are fetched. -/
theorem desk_resolve (h : cached? d.cache key = none) (hpath : path ≠ "") :
    (resolve d key path).1 = (d.get path).1 := by
  cases hfetch : (Remote.fetch d.remote path).2 with
  | ok data => rw [resolve_of_fetched h hpath hfetch]
  | error e => rw [resolve_of_failed h hpath hfetch]

end Siblings

/-! ## Desks with a list that is up to date -/

/-- An answer that is a list with entries. -/
def HasEntries (outcome : Outcome) : Prop :=
  ∃ data item items, outcome = .ok data ∧ Siblings.ofData? data = some (item :: items)

instance : DecidablePred HasEntries
  | .error _ => isFalse fun ⟨_, _, _, h, _⟩ => nomatch h
  | .ok data =>
    match h : Siblings.ofData? data with
    | some (item :: items) => isTrue ⟨data, item, items, rfl, h⟩
    | some [] => isFalse fun ⟨_, _, _, heq, hitems⟩ => by
        cases heq
        cases h.symm.trans hitems
    | none => isFalse fun ⟨_, _, _, heq, hitems⟩ => by
        cases heq
        cases h.symm.trans hitems

/-- Every answer to a fetch of the list has entries. -/
def Listed (list : String) (calls : List RemoteCall) : Prop :=
  ∀ outcome ∈ answers list calls, HasEntries outcome

instance (list : String) (calls : List RemoteCall) : Decidable (Listed list calls) :=
  inferInstanceAs (Decidable (∀ outcome ∈ answers list calls, HasEntries outcome))

theorem Listed.of_cons {list : String} {call : RemoteCall} {calls : List RemoteCall}
    (h : Listed list (call :: calls)) : Listed list calls := fun outcome houtcome =>
  h outcome (((List.sublist_cons_self call calls).filterMap _).subset houtcome)

/-- The data of the latest answer to a fetch of the list. -/
def Latest (list : String) (calls : List RemoteCall) (data : Option String) : Prop :=
  (answers list calls).head? = some (.ok data)

/-- The data of the latest answer has entries. -/
theorem Listed.latest {list : String} {calls : List RemoteCall} {data : Option String}
    (h : Listed list calls) (hlatest : Latest list calls data) :
    ∃ item items, Siblings.ofData? data = some (item :: items) := by
  obtain ⟨_, item, items, heq, hitems⟩ := h _ (List.mem_of_head? hlatest)
  obtain rfl := Except.ok.inj heq
  exact ⟨item, items, hitems⟩

namespace Desk

/-- A desk through which the list was not fetched yet, and nothing was saved. -/
structure Untouched (d : Desk (Recorded ω)) (list : String) : Prop where
  answers : RemoteCall.answers list d.calls = []
  saves : RemoteCall.saves d.calls = 0
  jobs : d.jobs.count list = 0
  entry : d.cache.entry? list = none

/-- A desk through which the list was fetched once, and once for every save: the fetches that are
still to be run count. The cache has the latest answer. -/
def UpToDate (d : Desk (Recorded ω)) (list : String) : Prop :=
  Listed list d.calls →
    (RemoteCall.answers list d.calls).length + d.jobs.count list = 1 + RemoteCall.saves d.calls ∧
      Latest list d.calls (d.cache.cached list).data

variable {a b d : Desk (Recorded ω)} {list path : String}

theorem cached_of_entry {c c' : Cache} (h : c'.entry? path = c.entry? path) :
    c'.cached path = c.cached path := by
  unfold Cache.cached
  rw [h]

theorem Untouched.alike (h : a.Untouched list) (halike : a.Alike b)
    (hjobs : b.jobs.count list = a.jobs.count list) : b.Untouched list where
  answers := by rw [Desk.calls, halike.remote]; exact h.answers
  saves := by rw [Desk.calls, halike.remote]; exact h.saves
  jobs := hjobs.trans h.jobs
  entry := (halike.entries list).trans h.entry

/-- The list is not found in the cache. -/
theorem Untouched.cached? (h : d.Untouched list) : Siblings.cached? d.cache list = none := by
  refine (Siblings.cached?_eq_none_iff _ _).mpr (.inr fun items hitems => ?_)
  rw [Cache.cached, h.entry] at hitems
  cases hitems

theorem UpToDate.alike (h : a.UpToDate list) (halike : a.Alike b)
    (hjobs : b.jobs.count list = a.jobs.count list) : b.UpToDate list := by
  unfold UpToDate Desk.calls at *
  rw [halike.remote, hjobs, cached_of_entry (halike.entries list)]
  exact h

/-- The list is found in the cache, and it is the one of the latest answer. -/
theorem UpToDate.cached? (h : d.UpToDate list) (hne : list ≠ "") (hlisted : Listed list d.calls) :
    ∃ data items, Latest list d.calls data ∧ Siblings.ofData? data = some items ∧
      Siblings.cached? d.cache list = some items := by
  obtain ⟨-, hlatest⟩ := h hlisted
  obtain ⟨item, items, hitems⟩ := hlisted.latest hlatest
  exact ⟨_, item :: items, hlatest, hitems,
    (Siblings.cached?_eq_some_iff _ _ _).mpr ⟨hne, List.cons_ne_nil _ _, hitems⟩⟩

theorem count_launch (d : Desk ω) (hne : path ≠ list) :
    (d.launch path).jobs.count list = d.jobs.count list := by
  show (d.jobs ++ [path]).count list = _
  rw [List.count_append, List.count_singleton, if_neg (by simpa using hne), Nat.add_zero]

theorem count_prefetch (d : Desk ω) (hne : path ≠ list) :
    (d.prefetch path).jobs.count list = d.jobs.count list := by
  unfold prefetch
  split
  · exact count_launch d hne
  · rfl

/-- Starting a background fetch of another path leaves the list alone. -/
theorem UpToDate.prefetch (h : d.UpToDate list) (hne : path ≠ list) :
    (d.prefetch path).UpToDate list :=
  h.alike (d.alike_prefetch path) (count_prefetch d hne)

theorem Untouched.prefetch (h : d.Untouched list) (hne : path ≠ list) :
    (d.prefetch path).Untouched list :=
  h.alike (d.alike_prefetch path) (count_prefetch d hne)

variable [Remote ω]

/-- What the end of the oldest background fetch keeps is kept when all of them are run. -/
theorem settle_keeps {P : Desk ω → Prop}
    (hrun : ∀ (d : Desk ω) path rest, P { d with jobs := path :: rest } →
      P { d.run path with jobs := rest }) {d : Desk ω} (h : P d) : P d.settle := by
  have hall : ∀ (paths : List String) (start : Desk ω), P { start with jobs := paths } →
      P (paths.foldl Desk.run { start with jobs := [] }) := by
    intro paths
    induction paths with
    | nil => exact fun _ hstart => hstart
    | cons path rest ih =>
        exact fun start hstart => ih (start.run path) (hrun start path rest hstart)
  exact hall d.jobs d h

theorem jobs_settle (d : Desk ω) : d.settle.jobs = [] := by
  have hall : ∀ (paths : List String) (start : Desk ω),
      (paths.foldl Desk.run start).jobs = start.jobs := by
    intro paths
    induction paths with
    | nil => exact fun _ => rfl
    | cons path rest ih => exact fun start => ih _
  exact hall d.jobs _

/-- After a fetch that succeeds, the cache has what it brought. -/
theorem Fetched.cached (h : a.Fetched path b) {data : Option String}
    (hfetch : (Remote.fetch a.remote path).2 = .ok data) : (b.cache.cached path).data = data := by
  have hentry := h.entries path
  rw [Cache.entry?_store, hfetch] at hentry
  rw [Cache.cached, hentry]
  rfl

/-- A fetch of another path leaves the list alone. -/
theorem Fetched.entry_of_ne (h : a.Fetched path b) (hne : path ≠ list) :
    b.cache.entry? list = a.cache.entry? list := by
  rw [h.entries, Cache.entry?_store_of_ne _ _ hne.symm]

namespace Untouched

theorem fetched (h : a.Untouched list) (hfetched : a.Fetched path b) (hne : path ≠ list)
    (hjobs : b.jobs = a.jobs) : b.Untouched list where
  answers := by rw [hfetched.calls, answers_fetched_of_ne _ _ hne]; exact h.answers
  saves := by rw [hfetched.calls, saves_fetched]; exact h.saves
  jobs := hjobs ▸ h.jobs
  entry := (hfetched.entry_of_ne hne).trans h.entry

theorem settle (h : d.Untouched list) : d.settle.Untouched list := by
  refine settle_keeps (P := fun e => e.Untouched list) (fun e path rest he => ?_) h
  have hcount : (path :: rest).count list = 0 := he.jobs
  obtain ⟨hne, hrest⟩ := not_or.mp (mt List.mem_cons.mpr (List.count_eq_zero.mp hcount))
  have hstart : { e with jobs := rest }.Untouched list :=
    ⟨he.answers, he.saves, List.count_eq_zero.mpr hrest, he.entry⟩
  have hfetched : Fetched { e with jobs := rest } path { e.run path with jobs := rest } :=
    ⟨rfl, (fetched_run e path).entries⟩
  exact hstart.fetched hfetched (Ne.symm hne) rfl

/-- After the first fetch the list is up to date. -/
theorem get (h : d.Untouched list) : (d.get list).1.UpToDate list := by
  have hfetched := d.fetched_get list
  intro hlisted
  have hanswers : RemoteCall.answers list (d.get list).1.calls =
      [(Remote.fetch d.remote list).2] := by
    rw [hfetched.calls, answers_fetched_self, h.answers]
  obtain ⟨data, -, -, hdata, -⟩ := hlisted _ (hanswers ▸ List.mem_singleton_self _)
  refine ⟨?_, ?_⟩
  · rw [hanswers, hfetched.calls, saves_fetched, h.saves]
    show 1 + d.jobs.count list = 1
    rw [h.jobs]
  · rw [Latest, hanswers, hfetched.cached hdata, hdata]
    rfl

end Untouched

namespace UpToDate

/-- A fetch of another path, or of the list when it was to be run. -/
theorem fetched (h : a.UpToDate list) (hfetched : a.Fetched path b)
    (hjobs : b.jobs.count list + (if path = list then 1 else 0) = a.jobs.count list) :
    b.UpToDate list := by
  intro hlisted
  have hcalls := hfetched.calls
  obtain ⟨hcount, hlatest⟩ := h (hcalls ▸ hlisted).of_cons
  by_cases hpath : path = list
  · subst hpath
    rw [if_pos rfl] at hjobs
    rw [hcalls] at hlisted ⊢
    obtain ⟨data, -, -, hdata, -⟩ := hlisted _ (by rw [answers_fetched_self]; exact .head _)
    refine ⟨?_, ?_⟩
    · rw [answers_fetched_self, saves_fetched, List.length_cons]
      omega
    · rw [Latest, answers_fetched_self, hfetched.cached hdata, hdata]
      rfl
  · rw [if_neg hpath, Nat.add_zero] at hjobs
    rw [hcalls, answers_fetched_of_ne _ _ hpath, saves_fetched, hjobs,
      cached_of_entry (hfetched.entry_of_ne hpath), Latest, answers_fetched_of_ne _ _ hpath]
    exact ⟨hcount, hlatest⟩

theorem get (h : d.UpToDate list) (hne : path ≠ list) : (d.get path).1.UpToDate list :=
  h.fetched (d.fetched_get path) (by rw [if_neg hne]; rfl)

/-- The background fetches are run. -/
theorem settle (h : d.UpToDate list) : d.settle.UpToDate list := by
  refine settle_keeps (P := fun e => e.UpToDate list) (fun e path rest he => ?_) h
  have hfetched : Fetched { e with jobs := path :: rest } path { e.run path with jobs := rest } :=
    ⟨rfl, (fetched_run e path).entries⟩
  refine he.fetched hfetched ?_
  rw [List.count_cons]
  simp only [beq_iff_eq]

/-- A write that fails changes nothing. -/
theorem failed (h : d.UpToDate list) {remote : Recorded ω} {method : String}
    {body : Option String} {e : RequestError}
    (hsend : Remote.send d.remote method path body = (remote, .error e)) :
    { d with remote }.UpToDate list := by
  obtain ⟨hremote, houtcome⟩ := Prod.mk.inj hsend
  have hcalls : remote.calls = .sent method path body (.error e) :: d.calls := by
    rw [← hremote, ← houtcome]
  unfold UpToDate at *
  simp only [Desk.calls, hcalls, Latest, answers_sent, saves_sent_error]
  exact fun hlisted => h hlisted.of_cons

/-- A write that succeeds and is followed by a refresh of the list. -/
theorem saved (h : d.UpToDate list) {remote : Recorded ω} {method : String}
    {body data : Option String}
    (hsend : Remote.send d.remote method path body = (remote, .ok data)) :
    (refresh { d with remote } [list]).UpToDate list := by
  obtain ⟨hremote, houtcome⟩ := Prod.mk.inj hsend
  have hcalls : remote.calls = .sent method path body (.ok data) :: d.calls := by
    rw [← hremote, ← houtcome]
  have hdesk : (refresh { d with remote } [list]).calls =
      .sent method path body (.ok data) :: d.calls := by
    rw [Desk.calls, remote_refresh]
    exact hcalls
  intro hlisted
  rw [hdesk] at hlisted
  obtain ⟨hcount, hlatest⟩ := h hlisted.of_cons
  obtain ⟨item, items, hitems⟩ := hlisted.of_cons.latest hlatest
  -- there is something to refresh
  have hentry : d.cache.wantsRefresh list = true := by
    rw [Cache.wantsRefresh]
    cases hnone : d.cache.entry? list with
    | some entry => rfl
    | none =>
        rw [Cache.cached, hnone] at hitems
        cases hitems
  have hrefresh : refresh { d with remote } [list] = launch { d with remote } list :=
    if_pos hentry
  rw [hdesk, answers_sent, saves_sent_ok, Latest, answers_sent]
  refine ⟨?_, ?_⟩
  · rw [hrefresh]
    show _ + (d.jobs ++ [list]).count list = _
    rw [List.count_append, List.count_singleton_self]
    omega
  · rw [hrefresh]
    exact hlatest

end UpToDate

/-- The siblings that are found through such a desk are those of the latest answer. -/
theorem upToDate_of_resolve (h : d.UpToDate list ∨ d.Untouched list) (hne : list ≠ "") :
    (Siblings.resolve d list list).1.UpToDate list ∧
      (Listed list (Siblings.resolve d list list).1.calls →
        ∃ data, Latest list (Siblings.resolve d list list).1.calls data ∧
          Siblings.ofData? data = some (Siblings.resolve d list list).2.1 ∧
          (Siblings.resolve d list list).2.2 = none) := by
  cases hcached : Siblings.cached? d.cache list with
  | some items =>
      rw [Siblings.resolve_of_cached hcached]
      rcases h with h | h
      · refine ⟨h, fun hlisted => ?_⟩
        obtain ⟨data, found, hlatest, hdata, hfound⟩ := h.cached? hne hlisted
        obtain rfl := Option.some.inj (hfound.symm.trans hcached)
        exact ⟨data, hlatest, hdata, rfl⟩
      · rw [h.cached?] at hcached
        cases hcached
  | none =>
      have hdesk := Siblings.desk_resolve hcached hne
      have hcalls := (d.fetched_get list).calls
      refine ⟨?_, fun hlisted => ?_⟩
      · rw [hdesk]
        rcases h with h | h
        · -- an up-to-date desk has the list in its cache, unless some answer had no entries
          intro hlisted
          rw [hcalls] at hlisted
          obtain ⟨_, _, -, -, hsome⟩ := h.cached? hne hlisted.of_cons
          rw [hsome] at hcached
          cases hcached
        · exact h.get
      · rw [hdesk, hcalls] at hlisted
        rw [hdesk, hcalls]
        obtain ⟨data, item, items, hdata, hitems⟩ :=
          hlisted _ (by rw [answers_fetched_self]; exact .head _)
        refine ⟨data, ?_, ?_⟩
        · rw [Latest, answers_fetched_self, hdata]
          rfl
        · rw [Siblings.resolve_of_fetched hcached hne hdata, hitems]
          exact ⟨rfl, rfl⟩

end Desk

/-! ## The two ends of a review -/

namespace Session

variable [Remote ω] {d d' : Desk (Recorded ω)} {p : SessionParams} {paths : Paths} {list : String}
  {s : Session}

/-- The desk at which the siblings are looked for: the submission was loaded, and the list was left
alone. -/
theorem upToDate_of_loaded (h : d.UpToDate list ∨ d.Untouched list)
    (hdetail : paths.detail ≠ list) (hattachments : paths.attachments ≠ list) :
    ((d.prefetch paths.attachments).get paths.detail).1.UpToDate list ∨
      ((d.prefetch paths.attachments).get paths.detail).1.Untouched list := by
  rcases h with h | h
  · exact .inl ((h.prefetch hattachments).get hdetail)
  · exact .inr ((h.prefetch hattachments).fetched (Desk.fetched_get _ _) hdetail rfl)

/-- After a mount the list is up to date, and the session navigates in the list of the latest
answer. -/
theorem upToDate_of_mount (h : d.UpToDate list ∨ d.Untouched list)
    (hlist : Endpoint.list p.projectId p.batchId = .ok list) (hkey : p.listKey = "")
    (hpaths : Paths.of p = .ok paths) :
    (Session.mount d p).1.UpToDate list ∧
      ∀ s, (Session.mount d p).2 = .ok s → Listed list (Session.mount d p).1.calls →
        ∃ data, Latest list (Session.mount d p).1.calls data ∧
          Siblings.ofData? data = some s.siblings ∧ s.siblingsError = none ∧
          s.navigator = Navigator.locate s.siblings p.submissionId
            (if p.pathTemplate = "" then Route.defaultTemplate else p.pathTemplate)
            [(Route.projectId, p.projectId), (Route.batchId, p.batchId)] := by
  obtain ⟨hdetail, hlist', hattachments⟩ := (Paths.of_eq_ok_iff p paths).mp hpaths
  obtain rfl := Except.ok.inj (hlist'.symm.trans hlist)
  have hloaded := upToDate_of_loaded h
    (Endpoint.list_ne_of_prefix hlist (Endpoint.prefix_of_detail hdetail))
    (Endpoint.list_ne_of_prefix hlist (Endpoint.prefix_of_attachments hattachments))
  obtain ⟨hdesk, hfound⟩ := Desk.upToDate_of_resolve hloaded (Endpoint.list_ne_empty hlist)
  have hmount : (Session.mount d p).1 = (Siblings.resolve
      ((d.prefetch paths.attachments).get paths.detail).1 paths.list paths.list).1 := by
    unfold mount
    rw [hpaths]
    simp only [hkey, if_true]
  refine ⟨hmount ▸ hdesk, fun s hs hlisted => ?_⟩
  obtain ⟨paths', _, loaded, hpaths', -, -, -, rfl⟩ := mount_eq_ok (Prod.ext rfl hs)
  obtain rfl := Except.ok.inj (hpaths'.symm.trans hpaths)
  rw [hmount] at hlisted ⊢
  obtain ⟨data, hlatest, hdata, herror⟩ := hfound hlisted
  simp only [hkey, if_true]
  exact ⟨data, hlatest, hdata, herror, rfl⟩

/-- A submit keeps the list up to date. -/
theorem upToDate_of_submit (h : d.UpToDate list) (hlist : s.coordinator.listPath = list)
    (e : Executor) : (s.submit e d).desk.UpToDate list := by
  by_cases hshut : s.Shut e
  · rw [(submit_of_shut hshut).desk]
    exact h
  · rcases hput : s.put d with ⟨remote, cause | data⟩
    · rw [(submit_of_failed hshut hput).desk]
      exact h.failed hput
    · rw [(submit_of_written hshut hput).1.desk, hlist]
      exact h.saved hput

end Session
end ReviewQueue
