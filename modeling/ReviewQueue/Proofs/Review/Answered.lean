import ReviewQueue.Proofs.Review.UpToDate

/-!
# What is answered when a submission is loaded

The first submission of a review is loaded with two answers: one for the submission, and one for the
list of its batch, which may have come before. Its attachments are then still to be fetched.

* `Desk.Awaits` — a desk at which a path is left alone, up to background fetches that wait;
* `Desk.Prepared` — a desk through which the list was asked for at most once;
* `Session.answers_of_mount` — what was answered, and the session that is made of it.
-/

namespace ReviewQueue

open RemoteCall

/-! ## Paths that are left alone -/

namespace Desk

/-- A desk at which a path is left alone, but for background fetches of it that are still to be run,
as many as are given. -/
structure Awaits (d : Desk (Recorded ω)) (path : String) (waiting : Nat) : Prop where
  jobs : d.jobs = List.replicate waiting path
  pending : d.cache.pendingOf path = waiting
  entry : d.cache.entry? path = none
  answers : RemoteCall.answers path d.calls = []

theorem awaits_fresh (terminal : Terminal) (service : ω) (path : String) :
    (Reviewer.fresh terminal service).desk.Awaits path 0 := ⟨rfl, rfl, rfl, rfl⟩

namespace Awaits

variable {d : Desk (Recorded ω)} {path other : String} {waiting : Nat}

theorem prefetch (h : d.Awaits path 0) : (d.prefetch path).Awaits path 1 := by
  have hlaunch : d.prefetch path = d.launch path := by
    unfold Desk.prefetch Cache.wantsPrefetch
    rw [h.pending]
    rfl
  rw [hlaunch]
  refine ⟨?_, ?_, h.entry, h.answers⟩
  · show d.jobs ++ [path] = _
    rw [h.jobs]
    rfl
  · show Cache.pendingOf (d.cache.begin path) path = 1
    rw [Cache.pendingOf_begin, h.pending]

variable [Remote ω]

theorem get (h : d.Awaits path waiting) (hne : other ≠ path) :
    (d.get other).1.Awaits path waiting where
  jobs := h.jobs
  pending := by
    show Cache.pendingOf (Cache.conclude (Cache.store (d.cache.begin other) _ other _) other)
      path = _
    rw [Cache.pendingOf_conclude_of_ne _ hne.symm]
    exact (Cache.pendingOf_begin_of_ne d.cache hne.symm).trans h.pending
  entry := ((fetched_get d other).entry_of_ne hne).trans h.entry
  answers := by
    rw [(fetched_get d other).calls, answers_fetched_of_ne _ _ hne]
    exact h.answers

/-- The one background fetch is run, and its outcome is what the cache shows. -/
theorem settle (h : d.Awaits path 1) :
    d.settle.calls = .fetched path (Remote.fetch d.remote path).2 :: d.calls ∧
      (d.settle.cache.peek path).loading = false ∧
      ∀ text, (d.settle.cache.peek path).data = some text ↔
        (Remote.fetch d.remote path).2 = .ok (some text) := by
  -- the one job that waits is the fetch of this path
  have hsettle : d.settle = ({ d with jobs := [] } : Desk (Recorded ω)).run path := by
    unfold Desk.settle
    rw [h.jobs]
    rfl
  have hfetched := fetched_run ({ d with jobs := [] } : Desk (Recorded ω)) path
  rw [← hsettle] at hfetched
  refine ⟨hfetched.calls, ?_, fun text => ?_⟩
  · rw [hsettle]
    show decide (0 < Cache.pendingOf (Cache.conclude (Cache.conclude (Cache.store
      (d.cache.begin path) _ path _) path) path) path) = false
    rw [Cache.pendingOf_conclude, Cache.pendingOf_conclude]
    show decide (0 < Cache.pendingOf (d.cache.begin path) path - 1 - 1) = false
    rw [Cache.pendingOf_begin, h.pending]
    rfl
  · have hentry := hfetched.entries path
    rw [Cache.entry?_store] at hentry
    show (d.settle.cache.cached path).data = some text ↔ _
    rw [Cache.cached, hentry]
    show (CacheEntry.after ((d.cache.entry? path).getD {}) _ _).data = some text ↔ _
    rw [h.entry]
    show (CacheEntry.after {} _ (Remote.fetch d.remote path).2).data = some text ↔ _
    cases (Remote.fetch d.remote path).2 with
    | ok data => exact ⟨congrArg Except.ok, Except.ok.inj⟩
    | error e =>
        constructor
        · intro h
          cases h
        · intro h
          cases h

end Awaits

/-! ## Lists that were asked for -/

/-- A desk through which the list was not asked for, or was asked for once and has entries. -/
inductive Prepared (d : Desk (Recorded ω)) (list : String) : Prop
  | unasked (answers : RemoteCall.answers list d.calls = []) (entry : d.cache.entry? list = none)
  | asked {data : Option String} {item : Option Summary} {items : List (Option Summary)}
      (answers : RemoteCall.answers list d.calls = [.ok data])
      (cached : (d.cache.cached list).data = data)
      (entries : Siblings.ofData? data = some (item :: items))

/-- The entries of an answer with a list, and what is said when there is none. -/
def listedIn : Outcome → List (Option Summary) × Option RequestError
  | .ok data => ((Siblings.ofData? data).getD [], none)
  | .error e => ([], some (.during "fetch sibling list" e))

variable {d : Desk (Recorded ω)} {list path : String}

theorem Prepared.prefetch (h : d.Prepared list) : (d.prefetch path).Prepared list := by
  have halike := d.alike_prefetch path
  have hcalls : (d.prefetch path).calls = d.calls := by rw [Desk.calls, halike.remote]
  have hcached := cached_of_entry (halike.entries list)
  cases h with
  | unasked answers entry =>
      refine .unasked ?_ ?_
      · rw [hcalls, answers]
      · rw [halike.entries, entry]
  | asked answers cached entries =>
      refine .asked ?_ ?_ entries
      · rw [hcalls, answers]
      · rw [hcached, cached]

variable [Remote ω]

theorem Prepared.get (h : d.Prepared list) (hne : path ≠ list) : (d.get path).1.Prepared list := by
  have hfetched := fetched_get d path
  have hanswers : RemoteCall.answers list (d.get path).1.calls =
      RemoteCall.answers list d.calls := by
    rw [hfetched.calls, answers_fetched_of_ne _ _ hne]
  cases h with
  | unasked answers entry =>
      exact .unasked (hanswers.trans answers) ((hfetched.entry_of_ne hne).trans entry)
  | asked answers cached entries =>
      refine .asked (hanswers.trans answers) ?_ entries
      rw [cached_of_entry (hfetched.entry_of_ne hne), cached]

/-- The siblings are those of the one answer with the list, for which the list is asked for now
unless it was before. -/
theorem Prepared.resolve (h : d.Prepared list) (hne : list ≠ "") :
    ∃ outcome, RemoteCall.answers list (Siblings.resolve d list list).1.calls = [outcome] ∧
      (∀ known ∈ RemoteCall.answers list d.calls, known = outcome) ∧
      (Siblings.resolve d list list).2 = listedIn outcome ∧
      ((Siblings.resolve d list list).1 = d ∨
        (Siblings.resolve d list list).1 = (d.get list).1) := by
  cases h with
  | @asked data item items answers cached entries =>
      -- the list that came before is in the cache, so it is not asked for again
      have hcached : Siblings.cached? d.cache list = some (item :: items) :=
        (Siblings.cached?_eq_some_iff _ _ _).mpr
          ⟨hne, List.cons_ne_nil _ _, by rw [cached, entries]⟩
      refine ⟨.ok data, ?_⟩
      rw [Siblings.resolve_of_cached hcached, listedIn, entries]
      exact ⟨answers, by simp [answers], rfl, .inl rfl⟩
  | unasked answers entry =>
      -- nothing was ever stored for the list, so it is asked for now
      have hcached : Siblings.cached? d.cache list = none := by
        refine (Siblings.cached?_eq_none_iff _ _).mpr (.inr fun items hitems => ?_)
        rw [Cache.cached, entry] at hitems
        cases hitems
      have hdesk := Siblings.desk_resolve hcached hne
      refine ⟨(Remote.fetch d.remote list).2, ?_, by simp [answers], ?_, .inr hdesk⟩
      · rw [hdesk, (fetched_get d list).calls, answers_fetched_self, answers]
      · cases hfetch : (Remote.fetch d.remote list).2 with
        | ok data => rw [Siblings.resolve_of_fetched hcached hne hfetch, listedIn]
        | error e => rw [Siblings.resolve_of_failed hcached hne hfetch, listedIn]

end Desk

/-! ## What was answered -/

/-- The submission in an answer. -/
def loadedFrom? : Outcome → Option Submission
  | .ok data => Json.decode? {} Submission.fill (data.getD "").toList
  | .error _ => none

namespace Session

variable [Remote ω] {d : Desk (Recorded ω)} {p : SessionParams} {paths : Paths}

theorem mount_of_paths (hpaths : Paths.of p = .ok paths) (hkey : p.listKey = "") (d : Desk ω) :
    let loaded := (d.prefetch paths.attachments).get paths.detail
    let resolved := Siblings.resolve loaded.1 paths.list paths.list
    Session.mount d p = (resolved.1, (readSubmission p.submissionId loaded.2).map fun s =>
      start p paths s resolved.2.1 resolved.2.2) := by
  unfold mount
  simp only [hpaths, hkey, if_true]

/-- The submission of a session is the one in the answer to its fetch. -/
theorem readSubmission_get (id : String) (d : Desk ω) (path : String) :
    (∀ s, loadedFrom? (Remote.fetch d.remote path).2 = some s →
      readSubmission id (d.get path).2 = .ok { s with parts := s.parts.map Part.sort }) ∧
    (loadedFrom? (Remote.fetch d.remote path).2 = none →
      ∃ e, readSubmission id (d.get path).2 = .error e) := by
  cases hfetch : (Remote.fetch d.remote path).2 with
  | error e =>
      have hread : readSubmission id (d.get path).2 =
          .error (.request (.during ("load submission " ++ id) e)) := by
        rw [readSubmission, Desk.error_of_failed hfetch]
      constructor
      · intro s hs
        simp only [loadedFrom?, reduceCtorEq] at hs
      · exact fun _ => ⟨_, hread⟩
  | ok data =>
      obtain ⟨herror, hdata⟩ := Desk.get_of_fetched hfetch
      rw [readSubmission, herror, hdata, loadedFrom?]
      cases Json.decode? {} Submission.fill (data.getD "").toList with
      | none =>
          constructor
          · intro s hs
            simp only [reduceCtorEq] at hs
          · exact fun _ => ⟨.malformed ("submission " ++ id), rfl⟩
      | some loaded =>
          constructor
          · intro s hs
            rw [Option.some.inj hs]
          · intro hnone
            simp only [reduceCtorEq] at hnone

/-- After a mount the submission and the list were answered once, and the attachments are awaited.
-/
theorem answers_of_mount (hpaths : Paths.of p = .ok paths) (hkey : p.listKey = "")
    (hattachments : d.Awaits paths.attachments 0)
    (hdetail : RemoteCall.answers paths.detail d.calls = []) (hlist : d.Prepared paths.list) :
    (Session.mount d p).1.Awaits paths.attachments 1 ∧
    ∃ detail list, RemoteCall.answers paths.detail (Session.mount d p).1.calls = [detail] ∧
      RemoteCall.answers paths.list (Session.mount d p).1.calls = [list] ∧
      (∀ known ∈ RemoteCall.answers paths.list d.calls, known = list) ∧
      (∀ s, loadedFrom? detail = some s → (Session.mount d p).2 =
        .ok (start p paths { s with parts := s.parts.map Part.sort } (Desk.listedIn list).1
          (Desk.listedIn list).2)) ∧
      (loadedFrom? detail = none → ∃ e, (Session.mount d p).2 = .error e) := by
  obtain ⟨hdetailPath, hlistPath, hattachmentsPath⟩ := (Paths.of_eq_ok_iff p paths).mp hpaths
  have hdetailList := Endpoint.list_ne_of_prefix hlistPath (Endpoint.prefix_of_detail hdetailPath)
  have hattachmentsList :=
    Endpoint.list_ne_of_prefix hlistPath (Endpoint.prefix_of_attachments hattachmentsPath)
  have hdetailAttachments := Endpoint.detail_ne_attachments hdetailPath hattachmentsPath
  have hfetched := Desk.fetched_get (d.prefetch paths.attachments) paths.detail
  have hprefetched : (d.prefetch paths.attachments).calls = d.calls := by
    rw [Desk.calls, (d.alike_prefetch paths.attachments).remote]
  have hloaded := hattachments.prefetch.get hdetailAttachments
  obtain ⟨list, hanswers, hknown, hsiblings, hdesk⟩ :=
    (hlist.prefetch.get hdetailList).resolve (Endpoint.list_ne_empty hlistPath)
  rw [hfetched.calls, answers_fetched_of_ne _ _ hdetailList, hprefetched] at hknown
  have hanswered : RemoteCall.answers paths.detail
      ((d.prefetch paths.attachments).get paths.detail).1.calls =
        [(Remote.fetch (d.prefetch paths.attachments).remote paths.detail).2] := by
    rw [hfetched.calls, answers_fetched_self, hprefetched, hdetail]
  obtain ⟨hread, hunread⟩ :=
    readSubmission_get p.submissionId (d.prefetch paths.attachments) paths.detail
  rw [mount_of_paths hpaths hkey d]
  refine ⟨?_, (Remote.fetch (d.prefetch paths.attachments).remote paths.detail).2, list, ?_,
    hanswers, hknown, fun s hs => ?_, fun hnone => ?_⟩
  · -- the list is not at the path of the attachments
    show (Siblings.resolve _ paths.list paths.list).1.Awaits paths.attachments 1
    rcases hdesk with hdesk | hdesk
    · rw [hdesk]
      exact hloaded
    · rw [hdesk]
      exact hloaded.get hattachmentsList.symm
  · rcases hdesk with hdesk | hdesk
    · rw [hdesk]
      exact hanswered
    · rw [hdesk, (Desk.fetched_get _ _).calls, answers_fetched_of_ne _ _ hdetailList.symm]
      exact hanswered
  · rw [hread s hs, hsiblings]
    rfl
  · obtain ⟨e, he⟩ := hunread hnone
    rw [he]
    exact ⟨e, rfl⟩

end Session

end ReviewQueue
