import ReviewQueue.Proofs.Remote.Listing
import ReviewQueue.Proofs.Review.Neighbours
import ReviewQueue.Proofs.Review.Saved
import ReviewQueue.Review.Reviewer

/-!
# The queue of a batch

A review of a batch starts at its first submission that is open, and goes on along the list that it
keeps in its cache. `Desk.Lists` is what such a desk has all the time: a sound store behind it, and
the ids of the batch in its cache, in order. What the cache says of their statuses may be out of
date.

* `Desk.Lists.browsed`, `Desk.Lists.saved` — reading and saving keep the list;
* `Reviewer.firstPending_run`, `Reviewer.firstPending_eq_ok` — where a review starts.
-/

namespace ReviewQueue

open Http

/-! ## Desks with a list -/

/-- A cache that has a list with these ids under a path. -/
def Cache.Lists (c : Cache) (path : String) (ids : List Int) : Prop :=
  ∃ items, Siblings.ofData? (c.cached path).data = some items ∧ Siblings.HasIds items ids

/-- A desk at a service with a batch of these ids, whose list it has in its cache. -/
structure Desk.Lists (d : Desk (Wire RunningService)) (project batch : String) (ids : List Int) :
    Prop where
  client : d.remote.client.AtOrigin
  clock : d.remote.peer.clock.Sound
  sound : d.store.Sound
  isOpen : d.store.isOpen = true
  near : d.store.BatchNear project batch
  listed : (d.store.batch project batch).map SubmissionRow.id = ids
  cached : d.cache.Lists (Endpoint.listPath project batch) ids

/-- What is read out of the answer to a request for a batch. -/
theorem Store.Sound.ofData?_listBody {store : Store} {project batch : String}
    (h : store.Sound) (hnear : store.BatchNear project batch) :
    Siblings.ofData? (some (store.listBody project batch)) =
      some ((store.batch project batch).map fun r => some r.summary) := by
  simp only [Siblings.ofData?, bind, Option.bind, h.decode_listing hnear]
  rfl

theorem Store.hasIds_batch (store : Store) (project batch : String) :
    Siblings.HasIds ((store.batch project batch).map fun r => some r.summary)
      ((store.batch project batch).map SubmissionRow.id) := by
  simp only [Siblings.HasIds, List.map_map]
  rfl

namespace Cache.Lists

variable {c c' : Cache} {path : String} {ids : List Int}

theorem of_entry (h : c.Lists path ids) (heq : c'.entry? path = c.entry? path) :
    c'.Lists path ids := by
  unfold Lists cached at *
  rwa [heq]

end Cache.Lists

namespace Desk

variable {d d' : Desk (Wire RunningService)} {project batch : String} {ids : List Int}

/-- A fetch at the path of a batch that succeeds brings its list. -/
theorem fetch_list (hclient : d.remote.client.AtOrigin) (hproject : IsName project)
    (hbatch : IsName batch) {data : Option String}
    (h : (Remote.fetch d.remote (Endpoint.listPath project batch)).2 = .ok data) :
    (d.store.isOpen = true ∧ Store.CanList (d.store.batch project batch)) ∧
      data = some (d.store.listBody project batch) := by
  have houtcome := hclient.send_list d.remote.peer hproject hbatch
  have hdata : (d.remote.client.send d.remote.peer "GET" (Endpoint.listPath project batch)
      none).2 = .ok data := h
  rw [hdata] at houtcome
  by_cases hcan : d.store.isOpen = true ∧ Store.CanList (d.store.batch project batch)
  · exact ⟨hcan, Option.some.inj (houtcome.trans (if_pos hcan))⟩
  · cases houtcome.trans (if_neg hcan)

/-- A desk with a list at the same service has the same one. -/
theorem Lists.of_same (h : d.Lists project batch ids) (hsame : d.SameService d')
    (hcached : d'.cache.Lists (Endpoint.listPath project batch) ids) :
    d'.Lists project batch ids := by
  have hstore : d'.store = d.store := hsame.store
  exact
    { client := hsame.client ▸ h.client
      clock := h.clock.of_time hsame.peer.time
      sound := hstore ▸ h.sound
      isOpen := hstore ▸ h.isOpen
      near := hstore ▸ h.near
      listed := hstore ▸ h.listed
      cached := hcached }

/-- Reading keeps the list. -/
theorem Lists.browsed (hproject : IsName project) (hbatch : IsName batch)
    (h : d.Lists project batch ids) (hbrowsed : d.Browsed d') : d'.Lists project batch ids := by
  refine h.of_same hbrowsed.same (hbrowsed.cached
    (P := fun data => ∃ items, Siblings.ofData? data = some items ∧ Siblings.HasIds items ids)
    h.cached ?_)
  -- a fetch that comes in between brings the list of the same store
  intro a hsame data hdata
  obtain ⟨-, rfl⟩ := fetch_list (hsame.client ▸ h.client) hproject hbatch hdata
  have hstore : a.store = d.store := hsame.store
  rw [hstore]
  refine ⟨_, h.sound.ofData?_listBody h.near, ?_⟩
  rw [← h.listed]
  exact d.store.hasIds_batch project batch

theorem Lists.pos (h : d.Lists project batch ids) : ∀ id ∈ ids, 0 < id ∧ fitsWord id = true := by
  intro id hid
  rw [← h.listed] at hid
  obtain ⟨r, hr, rfl⟩ := List.mem_map.mp hid
  have hrow := h.sound.rows r (Store.mem_batch.mp hr).1
  exact ⟨hrow.positive, hrow.id⟩

theorem Lists.nodup (h : d.Lists project batch ids) : ids.Nodup :=
  h.listed ▸ h.sound.nodup_batch project batch

theorem Lists.exists_row (h : d.Lists project batch ids) {id : Int} (hid : id ∈ ids) :
    ∃ r, d.store.row? id = some r := by
  rw [← h.listed] at hid
  obtain ⟨r, hr, rfl⟩ := List.mem_map.mp hid
  exact ⟨r, h.sound.row?_of_mem_batch hr⟩

/-- The siblings that are found are those of the list. -/
theorem Lists.resolve (h : d.Lists project batch ids) (hne : ids ≠ []) :
    ∃ items, Siblings.resolve d (Endpoint.listPath project batch)
        (Endpoint.listPath project batch) = (d, items, none) ∧ Siblings.HasIds items ids := by
  obtain ⟨items, hdata, hids⟩ := h.cached
  have hkey : Endpoint.listPath project batch ≠ "" := by
    intro hempty
    have hlist := congrArg String.toList hempty
    rw [Endpoint.listPath, String.toList_ofList] at hlist
    cases hlist
  have hsome : ∃ item rest, items = item :: rest := by
    refine List.exists_cons_of_ne_nil ?_
    rintro rfl
    exact hne (List.map_eq_nil_iff.mp hids.symm)
  obtain ⟨item, rest, rfl⟩ := hsome
  refine ⟨item :: rest, ?_, hids⟩
  simp only [Siblings.resolve, Siblings.cached?, if_neg hkey, hdata]

/-- The cache after a fetch of the list. -/
theorem cached_get_list (hsound : d.store.Sound) (hnear : d.store.BatchNear project batch)
    (hfetch : (Remote.fetch d.remote (Endpoint.listPath project batch)).2 =
      .ok (some (d.store.listBody project batch))) :
    (d.get (Endpoint.listPath project batch)).1.cache.Lists (Endpoint.listPath project batch)
      ((d.store.batch project batch).map SubmissionRow.id) := by
  have hentry := (fetched_get d (Endpoint.listPath project batch)).entries
    (Endpoint.listPath project batch)
  rw [Cache.entry?_store, hfetch] at hentry
  unfold Cache.Lists Cache.cached
  rw [hentry]
  exact ⟨_, hsound.ofData?_listBody hnear, d.store.hasIds_batch project batch⟩

end Desk

/-! ## Where a review starts -/

/-- The ids of a batch, from its first submission that is open on. -/
def Store.waiting (store : Store) (project batch : String) : List Int :=
  ((store.batch project batch).dropWhile fun r => !r.summary.status.isOpen).map SubmissionRow.id

namespace Store

variable (store : Store) (project batch : String)

/-- The queue is the end of its batch. -/
theorem waiting_suffix :
    store.waiting project batch <:+ (store.batch project batch).map SubmissionRow.id :=
  (List.dropWhile_suffix _).map _

/-- What stands before the queue is closed. -/
theorem closed_of_not_mem_waiting {row : SubmissionRow}
    (hrow : row ∈ store.batch project batch) (hnot : row.id ∉ store.waiting project batch) :
    row.summary.status.isOpen = false := by
  rw [← List.takeWhile_append_dropWhile (p := fun r : SubmissionRow => !r.summary.status.isOpen)
    (l := store.batch project batch)] at hrow
  have hbefore := (List.mem_append.mp hrow).resolve_right fun hmem =>
    hnot (List.mem_map_of_mem hmem)
  simpa using List.mem_takeWhile_imp hbefore

theorem waiting_eq_nil_iff :
    store.waiting project batch = [] ↔
      ∀ row ∈ store.batch project batch, row.summary.status.isOpen = false := by
  rw [waiting, List.map_eq_nil_iff, List.dropWhile_eq_nil_iff]
  simp

end Store

namespace Reviewer

/-- A step that stops keeps those behind it from being taken. -/
theorem run_bind {α β : Type} (x : ReviewStep ω α) (f : α → ReviewStep ω β) (r : Reviewer ω) :
    (x >>= f).run.run r =
      match x.run.run r with
      | (.ok a, r') => (f a).run.run r'
      | (.error e, r') => (.error e, r') := by
  show (match x.run.run r with
    | (a, r') => (ExceptT.bindCont f a).run r') = _
  rcases x.run.run r with ⟨_ | a, r'⟩ <;> rfl

theorem run_get (r : Reviewer ω) : (get : ReviewStep ω (Reviewer ω)).run.run r = (.ok r, r) := rfl

theorem run_set (r r' : Reviewer ω) : (set r' : ReviewStep ω PUnit).run.run r = (.ok ⟨⟩, r') := rfl

theorem firstOpen?_batch (rows : List SubmissionRow) :
    firstOpen? (rows.map fun r => some r.summary) =
      .ok ((rows.dropWhile fun r => !r.summary.status.isOpen).map SubmissionRow.id).head? := by
  induction rows with
  | nil => rfl
  | cons r rows ih =>
      rw [List.map_cons, firstOpen?]
      cases hopen : r.summary.status.isOpen with
      | true =>
          rw [List.dropWhile_cons_of_neg (by simp [hopen])]
          rfl
      | false =>
          rw [List.dropWhile_cons_of_pos (by simp [hopen])]
          exact ih

/-- What is made of the list that was loaded. -/
def startOf (view : CacheView) : Except ReviewStop (Option Int) :=
  match view.error with
  | some e => .error (.failed (.load (.request (.during "load submission list" e))))
  | none =>
    match Json.decode? {} SummaryList.fill (view.data.getD "").toList with
    | none => .error (.failed (.load (.malformed "submission list")))
    | some list => (firstOpen? (list.results.getD [])).mapError fun _ => .failed .crash

theorem firstPending_eq [Remote ω] {request : ReviewRequest} {path : String}
    (hpath : Endpoint.list request.project request.batch = .ok path) (r : Reviewer ω) :
    (firstPending request).run.run r =
      (startOf (r.desk.get path).2, { r with desk := (r.desk.get path).1 }) := by
  unfold firstPending startOf
  rw [hpath]
  simp only [run_bind, run_get, run_set]
  cases (r.desk.get path).2.error with
  | some e => rfl
  | none =>
      cases Json.decode? {} SummaryList.fill ((r.desk.get path).2.data.getD "").toList with
      | none => rfl
      | some list =>
          simp only
          cases firstOpen? (list.results.getD []) <;> rfl

section Start

variable {r started : Reviewer (Wire RunningService)} {request : ReviewRequest}
  {project batch : String} {first : Option Int}

/-- A review starts at the first submission that is open. -/
theorem firstPending_run (hproject : IsName request.project) (hbatch : IsName request.batch)
    (hclient : r.desk.remote.client.AtOrigin) (hsound : r.desk.store.Sound)
    (hopen : r.desk.store.isOpen = true)
    (hnear : r.desk.store.BatchNear request.project request.batch) :
    (firstPending request).run.run r =
      (.ok (r.desk.store.waiting request.project request.batch).head?,
        { r with desk := (r.desk.get (Endpoint.listPath request.project request.batch)).1 }) := by
  have hfetch : (Remote.fetch r.desk.remote
      (Endpoint.listPath request.project request.batch)).2 =
        .ok (some (r.desk.store.listBody request.project request.batch)) := by
    have houtcome := hclient.send_list r.desk.remote.peer hproject hbatch
    exact Client.eq_ok_of_toOption (houtcome.trans (if_pos ⟨hopen, hnear.canList⟩))
  obtain ⟨herror, hdata⟩ := Desk.get_of_fetched hfetch
  have hfirst := firstOpen?_batch (r.desk.store.batch request.project request.batch)
  rw [firstPending_eq (Endpoint.list_of_names hproject hbatch), startOf, herror, hdata]
  simp only [Option.getD_some, hsound.decode_listing hnear, Store.listing, hfirst]
  rfl

/-- A review that starts has loaded the list of its batch. -/
theorem firstPending_eq_ok (hproject : IsName request.project) (hbatch : IsName request.batch)
    (hclient : r.desk.remote.client.AtOrigin)
    (h : (firstPending request).run.run r = (.ok first, started)) :
    r.desk.store.isOpen = true ∧ r.desk.store.BatchNear request.project request.batch := by
  rw [firstPending_eq (Endpoint.list_of_names hproject hbatch)] at h
  obtain ⟨hresult, -⟩ := Prod.mk.inj h
  unfold startOf at hresult
  cases herror : (r.desk.get (Endpoint.listPath request.project request.batch)).2.error with
  | some e =>
      simp only [herror] at hresult
      cases hresult
  | none =>
      obtain ⟨⟨hopen, hcan⟩, hdata⟩ :=
        Desk.fetch_list hclient hproject hbatch (Desk.fetched_of_get herror)
      cases hdecode : Json.decode? {} SummaryList.fill
          (r.desk.store.listBody request.project request.batch).toList with
      | none =>
          simp only [herror, hdata, Option.getD_some, hdecode] at hresult
          cases hresult
      | some list => exact ⟨hopen, Store.near_of_decode hcan hdecode⟩

/-- The desk of a review that starts has the list of its batch. -/
theorem lists_of_start (hproject : IsName project) (hbatch : IsName batch)
    (hclient : r.desk.remote.client.AtOrigin) (hclock : r.desk.remote.peer.clock.Sound)
    (hsound : r.desk.store.Sound) (hopen : r.desk.store.isOpen = true)
    (hnear : r.desk.store.BatchNear project batch) :
    (r.desk.get (Endpoint.listPath project batch)).1.Lists project batch
      ((r.desk.store.batch project batch).map SubmissionRow.id) := by
  have hsame := (Desk.fetched_get r.desk (Endpoint.listPath project batch)).same
  have hstore : (r.desk.get (Endpoint.listPath project batch)).1.store = r.desk.store :=
    hsame.store
  have houtcome := (hclient.send_list r.desk.remote.peer hproject hbatch).trans
    (if_pos ⟨hopen, hnear.canList⟩)
  exact
    { client := hsame.client ▸ hclient
      clock := hclock.of_time hsame.peer.time
      sound := hstore ▸ hsound
      isOpen := hstore ▸ hopen
      near := hstore ▸ hnear
      listed := by rw [hstore]
      cached := Desk.cached_get_list hsound hnear (Client.eq_ok_of_toOption houtcome) }

end Start
end Reviewer
end ReviewQueue
