import ReviewQueue.Proofs.Query.Shared
import ReviewQueue.Proofs.Review.Recorded

/-!
# The attachments that are shown

The attachments of a submission are fetched in the background by every session that is mounted for
it, and a session shows what the cache has of them. A failure leaves the data of an older fetch in
the cache, and a session that finds data does not look at the failure beside it.

* `SharedCache.peek_of_sound` — what the cache shows of a path, by the fetches that were completed;
* `Session.Faithful` — attachments are shown when the fetch that was completed last brought them;
* `attachments_faithful_iff_not_outlived` — when what is shown is faithful, and what is shown of
  data that outlives a failure.
-/

namespace ReviewQueue

open RemoteCall

/-! ## The fetches of a path -/

namespace SharedCache

/-- A fetch of a path is pending. -/
def Pending (s : SharedCache) (path : String) : Prop :=
  ∃ t ∈ s.tasks, t.path = path ∧ t.UnderWay

/-- The outcome of the fetch of a path that was completed last. -/
def latest? (s : SharedCache) (path : String) : Option Outcome :=
  (s.effects path).findSome? CacheEffect.outcome?

/-- The data that the last fetch of a path which did not fail brought. -/
def data? (s : SharedCache) (path : String) : Option String :=
  ((s.effects path).findSome? CacheEffect.brought?).bind (·.2)

/-- The data of a path outlives a failure: no fetch is pending, the last one failed, and an older
one brought data. -/
structure Outlived (s : SharedCache) (path : String) : Prop where
  settled : ¬ s.Pending path
  failed : ∃ cause, s.latest? path = some (.error cause)
  kept : ∃ text, s.data? path = some text

variable {s : SharedCache} {path : String}

/-- What the cache shows of a path: whether a fetch is pending, the data of the last one that did
not fail, and the error of the last one if it failed. -/
theorem peek_of_sound (h : s.Sound) (path : String) :
    ((s.cache.peek path).loading = true ↔ s.Pending path) ∧
      (s.cache.peek path).data = s.data? path ∧
      (s.cache.peek path).error = (s.latest? path).bind fun
        | .ok _ => none
        | .error cause => some cause := by
  have hcached := cached_of_known (h.known path)
  refine ⟨?_, congrArg CacheView.data hcached, congrArg CacheView.error hcached⟩
  show decide (0 < s.cache.pendingOf path) = true ↔ _
  rw [decide_eq_true_iff, h.counted path]
  exact openOn_pos_iff h.fit path

/-- Where no fetch was completed there is no data. -/
theorem data?_of_nothing (h : s.latest? path = none) : s.data? path = none := by
  unfold data?
  rw [CacheEffect.brought?_eq_none h]
  rfl

end SharedCache

/-! ## What is made of them -/

namespace Session

/-- What is shown of a text of attachments. -/
def readAttachments (text : String) : Except MissingItem (Buckets × Option LoadError) :=
  match Json.decode? none Attachment.fillAll text.toList with
  | none => .ok ({}, some (.malformed "attachments"))
  | some items => (Buckets.ofList (some (items.getD []))).map fun b => (b, none)

/-- What is read out of a text is told apart from the failure of a request. -/
theorem readAttachments_ne (text : String) (b : Buckets) (cause : RequestError) :
    readAttachments text ≠ .ok (b, some (.request cause)) := by
  unfold readAttachments
  split
  · intro h
    cases h
  · rename_i items _
    cases Buckets.ofList (some (items.getD [])) with
    | error e => exact fun h => nomatch h
    | ok b' => exact fun h => nomatch h

/-- While a fetch is pending, and where there is no data, no attachments are shown. -/
theorem attachments_of_hidden {s : Session} {c : Cache}
    (h : (c.peek s.attachmentsPath).loading = true ∨ (c.peek s.attachmentsPath).data = none) :
    s.attachments c = .ok ({}, (c.peek s.attachmentsPath).error.map .request) := by
  unfold attachments
  simp only
  split
  · rename_i text hloading hdata
    obtain hpending | hnothing := h
    · cases hloading.symm.trans hpending
    · cases hdata.symm.trans hnothing
  · rfl

/-- Where there is data and no fetch is pending, the data is read. -/
theorem attachments_of_data {s : Session} {c : Cache} {text : String}
    (hloading : (c.peek s.attachmentsPath).loading = false)
    (hdata : (c.peek s.attachmentsPath).data = some text) :
    s.attachments c = readAttachments text := by
  unfold attachments
  simp only [hloading, hdata]
  rfl

/-- What is shown of attachments fits their fetches: there are buckets only when no fetch is pending
and the last one did not fail, and the failure of the last one is told. -/
structure Faithful (pending : Prop) (latest : Option Outcome)
    (shown : Except MissingItem (Buckets × Option LoadError)) : Prop where
  fresh : ∀ b e, shown = .ok (b, e) → b ≠ {} → ¬ pending ∧ ∃ data, latest = some (.ok data)
  hidden : pending → ∃ e, shown = .ok ({}, e)
  told : ∀ cause, latest = some (.error cause) → shown = .ok ({}, some (.request cause))

end Session

open Session in
/-- **When the attachments that are shown are those of the last fetch.** Whatever operations shared
the cache, and however their steps fell: a session shows its attachments faithfully, except when
data outlives a failure. In that case too the data is read and shown as if nothing had failed. -/
theorem attachments_faithful_iff_not_outlived (moves : List CacheMove) (s : Session) :
    let shared := SharedCache.run {} moves
    let path := s.attachmentsPath
    let shown := s.attachments shared.cache
    (Faithful (shared.Pending path) (shared.latest? path) shown ↔ ¬ shared.Outlived path) ∧
      ∀ text, ¬ shared.Pending path → shared.data? path = some text →
        shown = readAttachments text := by
  intro shared path shown
  have hsound : shared.Sound := SharedCache.sound_run SharedCache.sound_empty moves
  obtain ⟨hloading, hdata, herror⟩ := SharedCache.peek_of_sound hsound path
  have hread : ∀ text, ¬ shared.Pending path → shared.data? path = some text →
      shown = readAttachments text := by
    intro text hsettled htext
    exact attachments_of_data (Bool.eq_false_iff.mpr fun h => hsettled (hloading.mp h))
      (hdata.trans htext)
  refine ⟨⟨?_, fun hkept => ?_⟩, hread⟩
  · rintro hfaithful ⟨hsettled, ⟨cause, hfailed⟩, text, htext⟩
    exact readAttachments_ne text {} cause
      ((hread text hsettled htext).symm.trans (hfaithful.told cause hfailed))
  · by_cases hhidden : shared.Pending path ∨ shared.data? path = none
    · have hshown : shown = .ok ({}, (shared.cache.peek path).error.map .request) :=
        attachments_of_hidden (hhidden.imp hloading.mpr hdata.trans)
      constructor
      case fresh =>
        intro b e hb hne
        obtain ⟨rfl, -⟩ := Prod.mk.inj (Except.ok.inj (hb.symm.trans hshown))
        exact absurd rfl hne
      case hidden => exact fun _ => ⟨_, hshown⟩
      case told =>
        intro cause hfailed
        rw [hshown, herror, hfailed]
        rfl
    · obtain ⟨hsettled, hsome⟩ := not_or.mp hhidden
      obtain ⟨text, htext⟩ := Option.ne_none_iff_exists'.mp hsome
      -- with data that does not outlive a failure, the last fetch did not fail
      have hlatest : ∃ data, shared.latest? path = some (.ok data) := by
        match hcases : shared.latest? path with
        | none => exact absurd (SharedCache.data?_of_nothing hcases) hsome
        | some (.ok data) => exact ⟨data, rfl⟩
        | some (.error cause) => exact absurd ⟨hsettled, ⟨cause, hcases⟩, text, htext⟩ hkept
      constructor
      case fresh => exact fun _ _ _ _ => ⟨hsettled, hlatest⟩
      case hidden => exact fun hpending => absurd hpending hsettled
      case told =>
        intro cause hfailed
        obtain ⟨data, hok⟩ := hlatest
        cases hok.symm.trans hfailed

/-! ## A service whose attachments are lost -/

/-- A service with fixed pages, one of which is answered with these outcomes in turn. -/
structure Turns where
  pages : Pages
  path : String
  outcomes : List Outcome

instance : Remote Turns where
  fetch t path :=
    if path = t.path then
      ({ t with outcomes := t.outcomes.tail },
        t.outcomes.head?.getD (.error (.other "no such page")))
    else (t, (Remote.fetch t.pages path).2)
  send t _ _ _ := (t, .ok none)
  now _ := .zero

/-- A service with one submission, whose attachments can be fetched once. -/
def Turns.once : Turns where
  pages :=
    ⟨[("/api/v1/projects/p/batches/b/submissions", "\x7b\"results\":[\x7b\"id\":1\x7d]\x7d"),
      ("/api/v1/submissions/1", "\x7b\"id\":1\x7d")]⟩
  path := "/api/v1/submissions/1/attachments"
  outcomes := [.ok (some "[\x7b\"source\":\"task\"\x7d]"), .error (.other "gone")]

/-- The parameters for this submission. -/
def Turns.params : SessionParams := { projectId := "p", batchId := "b", submissionId := "1" }

/-- The session for it. -/
def Turns.session : Session :=
  .start params
    ⟨"/api/v1/submissions/1", "/api/v1/projects/p/batches/b/submissions",
      "/api/v1/submissions/1/attachments"⟩
    { id := 1 } [some { id := 1 }] none

/-- The submission is mounted twice. The first fetch of its attachments brings one, and the second
fails; the attachment is still shown, and no error with it. -/
theorem attachments_outlive_failure :
    let first := Session.mount { remote := ({ service := .once } : Recorded Turns) } Turns.params
    let second := Session.mount first.1.settle Turns.params
    let s := Turns.session
    let desk := second.1.settle
    first.2 = .ok s ∧ second.2 = .ok s ∧
      answers s.attachmentsPath desk.calls =
        [.error (.other "gone"), .ok (some "[\x7b\"source\":\"task\"\x7d]")] ∧
      s.attachments desk.cache =
        .ok ({ task := some [{ source := "task" }], submission := some [] }, none) ∧
      ¬ Session.Faithful (0 < desk.cache.pendingOf s.attachmentsPath)
        (answers s.attachmentsPath desk.calls).head? (s.attachments desk.cache) := by
  intro first second s desk
  have hruns : first.2 = .ok s ∧ second.2 = .ok s ∧
      answers s.attachmentsPath desk.calls =
        [.error (.other "gone"), .ok (some "[\x7b\"source\":\"task\"\x7d]")] ∧
      s.attachments desk.cache =
        .ok ({ task := some [{ source := "task" }], submission := some [] }, none) := by
    decide +kernel
  obtain ⟨hfirst, hsecond, hanswers, hshown⟩ := hruns
  refine ⟨hfirst, hsecond, hanswers, hshown, fun hfaithful => ?_⟩
  have htold := hfaithful.told (.other "gone") (congrArg List.head? hanswers)
  cases hshown.symm.trans htold

end ReviewQueue
