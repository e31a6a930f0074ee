import ReviewQueue.Proofs.Query.Desk
import ReviewQueue.Proofs.Remote.Follow
import ReviewQueue.Review.Session

/-!
# Desks that are only read from

Between the loading of a submission and its save, and between two submissions, a desk is read from:
paths are fetched, and background fetches are started and run. Whatever the order, all that happens
to the desk is one fetch after the other.

* `Desk.Browsed.preserves` — what every single fetch keeps is kept;
* `Desk.Browsed.same` — the service behind a desk stays as it is;
* `Desk.Browsed.cached` — what is known of the data under a path stays known;
* `Session.browsed_of_mount` — loading a submission only reads.
-/

namespace ReviewQueue

namespace Desk

/-- A desk with the same far side and the same entries. -/
structure Alike (d d' : Desk ω) : Prop where
  remote : d'.remote = d.remote
  entries : ∀ other, d'.cache.entry? other = d.cache.entry? other

theorem alike_launch (d : Desk ω) (path : String) : d.Alike (d.launch path) := ⟨rfl, fun _ => rfl⟩

theorem alike_prefetch (d : Desk ω) (path : String) : d.Alike (d.prefetch path) := by
  unfold prefetch
  split
  · exact d.alike_launch path
  · exact ⟨rfl, fun _ => rfl⟩

theorem alike_refresh (d : Desk ω) (path : String) : d.Alike (d.refresh [path]) := by
  show d.Alike (if d.cache.wantsRefresh path then d.launch path else d)
  split
  · exact d.alike_launch path
  · exact ⟨rfl, fun _ => rfl⟩

section Steps

variable [Remote ω] {d d' : Desk ω}

/-- What reading can make of a desk. -/
inductive Browsed (d : Desk ω) : Desk ω → Prop
  | refl : Browsed d d
  | get {d' : Desk ω} (path : String) : Browsed d d' → Browsed d (d'.get path).1
  | prefetch {d' : Desk ω} (path : String) : Browsed d d' → Browsed d (d'.prefetch path)
  | settle {d' : Desk ω} : Browsed d d' → Browsed d d'.settle

/-- A desk after one fetch of a path. -/
structure Fetched (d : Desk ω) (path : String) (d' : Desk ω) : Prop where
  remote : d'.remote = (Remote.fetch d.remote path).1
  entries : ∀ other, d'.cache.entry? other =
    Cache.entry? (d.cache.store (Remote.now d'.remote) path (Remote.fetch d.remote path).2) other

theorem entry?_store_begin (c : Cache) (now : Timestamp) (path other : String)
    (outcome : Outcome) :
    Cache.entry? ((c.begin path).store now path outcome) other =
      Cache.entry? (c.store now path outcome) other := rfl

theorem fetched_get (d : Desk ω) (path : String) : d.Fetched path (d.get path).1 where
  remote := rfl
  entries other := by
    show Cache.entry? (Cache.conclude _ path) other = _
    rw [Cache.entry?_conclude, entry?_store_begin]
    rfl

theorem fetched_run (d : Desk ω) (path : String) : d.Fetched path (d.run path) where
  remote := rfl
  entries other := by
    show Cache.entry? (Cache.conclude (Cache.conclude _ path) path) other = _
    rw [Cache.entry?_conclude, Cache.entry?_conclude, entry?_store_begin]
    rfl

/-- What every single fetch keeps is kept by all that reading can do. -/
theorem Browsed.preserves {P : Desk ω → Prop} (alike : ∀ {a b}, a.Alike b → P a → P b)
    (fetched : ∀ {a b path}, a.Fetched path b → P a → P b) (h : d.Browsed d') (hd : P d) :
    P d' := by
  induction h with
  | refl => exact hd
  | get path _ ih => exact fetched (fetched_get _ path) ih
  | prefetch path _ ih => exact alike (alike_prefetch _ path) ih
  | @settle middle _ ih =>
      have hstart : P { middle with jobs := [] } :=
        alike (a := middle) ⟨rfl, fun _ => rfl⟩ ih
      -- the background fetches are run one after the other
      have hrun : ∀ (paths : List String) (start : Desk ω), P start →
          P (paths.foldl Desk.run start) := by
        intro paths
        induction paths with
        | nil => exact fun _ hstart => hstart
        | cons path rest ih =>
            exact fun start hstart => ih _ (fetched (fetched_run start path) hstart)
      exact hrun middle.jobs _ hstart

theorem Browsed.trans {d'' : Desk ω} (h : d.Browsed d') (h' : d'.Browsed d'') :
    d.Browsed d'' := by
  induction h' with
  | refl => exact h
  | get path _ ih => exact ih.get path
  | prefetch path _ ih => exact ih.prefetch path
  | settle _ ih => exact ih.settle

end Steps

/-! ## The service behind a desk -/

/-- The store of the service behind a desk. -/
abbrev store (d : Desk (Wire RunningService)) : Store := d.remote.peer.service.store

/-- The same service, through the same client. -/
structure SameService (d d' : Desk (Wire RunningService)) : Prop where
  client : d'.remote.client = d.remote.client
  peer : d.remote.peer.Same d'.remote.peer

/-- A fetch leaves the service as it is. -/
theorem send_get_same (c : Client) (w : RunningService) (path : String) :
    w.Same (c.send w "GET" path none).1 := by
  unfold Client.send
  cases hout : c.outgoing "GET" path none with
  | error e => exact .refl w
  | ok sent =>
      have hmethod : sent.method = "GET" := by
        have hsame := Client.outgoing_of_isCall (c := c) (.inl rfl) path none
        rw [hout] at hsame
        exact congrArg Http.Outgoing.method (Except.ok.inj hsame)
      exact Client.follow_get_same hmethod

section Same

variable {d d' d'' : Desk (Wire RunningService)}

theorem SameService.store (h : d.SameService d') : d'.store = d.store := h.peer.store

theorem SameService.trans (h : d.SameService d') (h' : d'.SameService d'') : d.SameService d'' :=
  ⟨h'.client.trans h.client, h.peer.trans h'.peer⟩

theorem Alike.same (h : d.Alike d') : d.SameService d' := by
  refine ⟨?_, ?_⟩ <;> rw [h.remote]
  exact .refl _

theorem Fetched.same {path : String} (h : d.Fetched path d') : d.SameService d' := by
  refine ⟨?_, ?_⟩ <;> rw [h.remote]
  · rfl
  · exact send_get_same d.remote.client d.remote.peer path

/-- Reading leaves the service as it is. -/
theorem Browsed.same (h : d.Browsed d') : d.SameService d' :=
  h.preserves (P := d.SameService) (fun halike ha => ha.trans halike.same)
    (fun hfetched ha => ha.trans hfetched.same) ⟨rfl, .refl _⟩

/-- What is known of the data under a path stays known, when all that the service has for the path
is such data. -/
theorem Browsed.cached {P : Option String → Prop} {path : String} (h : d.Browsed d')
    (hd : P (d.cache.cached path).data)
    (hfetch : ∀ e : Desk (Wire RunningService), d.SameService e →
      ∀ data, (Remote.fetch e.remote path).2 = .ok data → P data) :
    P (d'.cache.cached path).data := by
  have hof {a b : Cache} (hentry : b.entry? path = a.entry? path) (ha : P (a.cached path).data) :
      P (b.cached path).data := by
    unfold Cache.cached at *
    rwa [hentry]
  refine (h.preserves (P := fun e => d.SameService e ∧ P (e.cache.cached path).data) ?_ ?_
    ⟨⟨rfl, .refl _⟩, hd⟩).2
  · intro a b halike ha
    exact ⟨ha.1.trans halike.same, hof (halike.entries path) ha.2⟩
  · intro a b other hfetched ha
    refine ⟨ha.1.trans hfetched.same, hof (hfetched.entries path) ?_⟩
    refine Cache.data_store ha.2 _ other _ ?_
    rintro rfl data hdata
    exact hfetch a ha.1 data hdata

end Same

end Desk

/-- Loading the siblings of a submission only reads. -/
theorem Siblings.browsed_resolve [Remote ω] (d : Desk ω) (key path : String) :
    d.Browsed (Siblings.resolve d key path).1 := by
  unfold resolve
  split
  · exact .refl
  · split
    · exact .refl
    · simp only
      split
      · exact .get path .refl
      · exact .get path .refl

/-- Loading a submission only reads. -/
theorem Session.browsed_of_mount [Remote ω] {d d' : Desk ω} {p : SessionParams}
    {r : Except LoadError Session} (h : Session.mount d p = (d', r)) : d.Browsed d' := by
  unfold mount at h
  split at h
  · cases h
    exact .refl
  · obtain ⟨rfl, -⟩ := Prod.mk.inj h
    exact ((Desk.Browsed.refl.prefetch _).get _).trans (Siblings.browsed_resolve _ _ _)

end ReviewQueue
