import ReviewQueue.Proofs.Review.Round

/-!
# The walk along the queue

A review starts at the first open submission of a batch, and goes from round to round.
`queue_walked` says that the rounds go along the queue of the batch without skipping or repeating a
submission, that they end with it, and that nothing is left to review then.

* `Reviewer.Rounds.walked` — what any number of rounds does;
* `Reviewer.exists_rounds` — a queue that can be walked to its end;
* `queue_walked` — the whole walk.
-/

namespace ReviewQueue

open Http

namespace Reviewer

variable {plan : ReviewPlan} {r r' : Reviewer (Wire RunningService)} {ids : List Int}

/-! ## All rounds -/

/-- Rounds one after the other, from a submission on: which ones were visited, and how it ended. -/
inductive Rounds (plan : ReviewPlan) :
    Reviewer (Wire RunningService) → String → List String → Reviewer (Wire RunningService) →
      Except ReviewStop String → Prop
  | last {r r' : Reviewer (Wire RunningService)} {id : String}
      {outcome : Except ReviewStop String} :
      Round plan r id r' outcome → Rounds plan r id [id] r' outcome
  | more {r r' r'' : Reviewer (Wire RunningService)} {id next : String} {visited : List String}
      {outcome : Except ReviewStop String} :
      Round plan r id r' (.ok next) → Rounds plan r' next visited r'' outcome →
        Rounds plan r id (id :: visited) r'' outcome

/-- What rounds do: they go along the queue, and give a final status to what they visit and to
nothing else. -/
structure Walked (queue : List Int) (before after : Store) (visited : List String)
    (outcome : Except ReviewStop String) (seen rest : List Int) : Prop where
  queue : queue = seen ++ rest
  visited : visited = seen.map Text.ofInt
  outcome : outcome = Reviewer.after rest
  rows : ∀ other, other ∉ seen → after.row? other = before.row? other
  others : ∀ other, other ∉ seen → after.get other = before.get other
  closed : ∀ id ∈ seen, ∃ new, after.get id = .ok new ∧ new.status.isOpen = false

theorem Rounds.walked (hplan : Plain plan)
    (hlists : r.desk.Lists plan.request.project plan.request.batch ids) {before tail : List Int}
    {id : Int} (hids : ids = before ++ id :: tail) {visited : List String}
    {outcome : Except ReviewStop String}
    (h : Rounds plan r (Text.ofInt id) visited r' outcome) :
    r'.desk.Lists plan.request.project plan.request.batch ids ∧
      ∃ seen rest, Walked (id :: tail) r.desk.store r'.desk.store visited outcome seen rest := by
  generalize htext : Text.ofInt id = text at h
  induction h generalizing id before tail with
  | last hround =>
      subst htext
      obtain ⟨houtcome, hlists', hothers, hclosed⟩ := hround.step hplan hlists hids
      refine ⟨hlists', [id], tail, rfl, rfl, houtcome, ?_, ?_, ?_⟩
      · exact fun other hother => (hothers other (List.mem_singleton.not.mp hother)).1
      · exact fun other hother => (hothers other (List.mem_singleton.not.mp hother)).2
      · exact List.forall_mem_singleton.mpr hclosed
  | @more r r₁ r₂ _ next visited outcome hround _ ih =>
      subst htext
      obtain ⟨houtcome, hlists', hothers, hclosed⟩ := hround.step hplan hlists hids
      -- there is a next submission in the queue, and the other rounds start there
      cases tail with
      | nil => cases houtcome
      | cons follower tail =>
          obtain rfl := Except.ok.inj houtcome
          have hsplit : ids = (before ++ [id]) ++ follower :: tail := by rw [hids]; simp
          obtain ⟨hfinal, seen, rest, hwalked⟩ := ih hlists' hsplit rfl
          refine ⟨hfinal, id :: seen, rest, ?_, ?_, hwalked.outcome, ?_, ?_, ?_⟩
          · rw [hwalked.queue, List.cons_append]
          · rw [hwalked.visited, List.map_cons]
          · intro other hother
            obtain ⟨hne, hnot⟩ := not_or.mp (mt List.mem_cons.mpr hother)
            exact (hwalked.rows other hnot).trans (hothers other hne).1
          · intro other hother
            obtain ⟨hne, hnot⟩ := not_or.mp (mt List.mem_cons.mpr hother)
            exact (hwalked.others other hnot).trans (hothers other hne).2
          · refine List.forall_mem_cons.mpr ⟨?_, hwalked.closed⟩
            -- no later round comes back to this submission
            have hnot : id ∉ seen := by
              intro hmem
              have hnodup := hlists.nodup
              rw [hids, hwalked.queue] at hnodup
              have htail := (List.nodup_append.mp hnodup).2.1
              exact (List.nodup_cons.mp htail).1 (List.mem_append_left rest hmem)
            rw [hwalked.others id hnot]
            exact hclosed

/-! ## When nothing is left -/

/-- A run that has nothing to start with says so, and is over. -/
theorem run_of_nothing (hid : plan.request.id = "") {started : Reviewer (Wire RunningService)}
    (h : (firstPending plan.request).run.run r = (.ok none, started)) :
    Reviewer.run plan r =
      ({ started with
        terminal := started.terminal.tell (·.info ("Nothing left to review in " ++
          plan.request.project ++ "/" ++ plan.request.batch ++ ".")) }, none) := by
  have hstart : (start plan).run.run r =
      (.error .finished,
        { started with
          terminal := started.terminal.tell (·.info ("Nothing left to review in " ++
            plan.request.project ++ "/" ++ plan.request.batch ++ ".")) }) := by
    unfold start
    rw [if_neg (by simp [hid]), run_bind, h]
    rfl
  unfold Reviewer.run
  simp only [run_bind, hstart]

/-- A batch in which nothing is left to review, so that every new run is over at once. -/
structure Exhausted (plan : ReviewPlan) (store : Store) : Prop where
  closed : ∀ row ∈ store.batch plan.request.project plan.request.batch,
    row.summary.status.isOpen = false
  reported : ∀ r : Reviewer (Wire RunningService), r.desk.remote.client.AtOrigin →
    r.desk.store = store → plan.request.id = "" →
    ∃ desk, Reviewer.run plan r =
      ({ r with
        desk
        terminal := r.terminal.tell (·.info ("Nothing left to review in " ++
          plan.request.project ++ "/" ++ plan.request.batch ++ ".")) }, none)

theorem exhausted_of_closed (hplan : Plain plan) {store : Store} (hsound : store.Sound)
    (hopen : store.isOpen = true)
    (hnear : store.BatchNear plan.request.project plan.request.batch)
    (hclosed : ∀ row ∈ store.batch plan.request.project plan.request.batch,
      row.summary.status.isOpen = false) : Exhausted plan store where
  closed := hclosed
  reported r hclient hstore hid := by
    have hwaiting : r.desk.store.waiting plan.request.project plan.request.batch = [] := by
      rw [hstore]
      exact (store.waiting_eq_nil_iff _ _).mpr hclosed
    have hrun := firstPending_run hplan.project hplan.batch hclient (hstore ▸ hsound)
      (hstore ▸ hopen) (hstore ▸ hnear)
    rw [hwaiting] at hrun
    have hover := run_of_nothing hid hrun
    exact ⟨_, hover⟩

/-- No submission is visited twice. -/
theorem Walked.nodup {queue seen rest : List Int} {before after : Store} {visited : List String}
    {outcome : Except ReviewStop String}
    (h : Walked queue before after visited outcome seen rest) (hnodup : queue.Nodup)
    (hfits : ∀ id ∈ queue, fitsWord id = true) : visited.Nodup := by
  have hqueue := h.queue
  subst hqueue
  -- a number is read back from its text
  have hread : ∀ id ∈ seen, Text.toInt? (Text.ofInt id) = some id := fun id hid =>
    Text.toInt?_ofInt (hfits id (List.mem_append_left rest hid))
  rw [h.visited]
  refine (List.nodup_append.mp hnodup).1.map_on fun a ha b hb heq => ?_
  rw [← Option.some.injEq, ← hread a ha, ← hread b hb, heq]

/-- Where the queue has ended, nothing is left: what comes before the queue was closed already, and
what was visited is closed. -/
theorem Walked.exhausted (hplan : Plain plan)
    (hlists : r.desk.Lists plan.request.project plan.request.batch ids) {store : Store}
    (hsound : store.Sound)
    (hids : (store.batch plan.request.project plan.request.batch).map SubmissionRow.id = ids)
    {visited : List String} {outcome : Except ReviewStop String} {seen : List Int}
    (h : Walked (store.waiting plan.request.project plan.request.batch) store r.desk.store visited
      outcome seen []) : Exhausted plan r.desk.store := by
  refine exhausted_of_closed hplan hlists.sound hlists.isOpen hlists.near fun row hrow => ?_
  have hid : row.id ∈ ids := hlists.listed ▸ List.mem_map_of_mem hrow
  by_cases hseen : row.id ∈ seen
  · obtain ⟨new, hnew, hclosed⟩ := h.closed row.id hseen
    rw [hlists.sound.status_of_mem_batch hrow hnew]
    exact hclosed
  · -- what was not visited is as it was, and stands before the queue
    obtain ⟨old, hold, heq⟩ := List.mem_map.mp (hids ▸ hid)
    have hbefore := h.rows row.id hseen
    rw [hlists.sound.row?_of_mem_batch hrow, ← heq, hsound.row?_of_mem_batch hold] at hbefore
    obtain rfl := Option.some.inj hbefore
    have hqueue := h.queue
    rw [List.append_nil] at hqueue
    exact store.closed_of_not_mem_waiting _ _ hold (by rw [hqueue]; exact hseen)

/-! ## Queues that can be walked -/

/-- A queue of submissions that can be reviewed can be walked to its end. -/
theorem exists_rounds (hplan : Plain plan) (hreadOnly : plan.preferences.readOnlyStatuses = [])
    {tail : List Int} : ∀ {r : Reviewer (Wire RunningService)} {before : List Int} {id : Int},
    r.desk.Lists plan.request.project plan.request.batch ids → ids = before ++ id :: tail →
      r.executor.busy = false → (∀ x ∈ id :: tail, Reviewable r.desk.store x) →
        ∃ visited r', Rounds plan r (Text.ofInt id) visited r' (.error .finished) := by
  induction tail with
  | nil =>
      intro r before id hlists hids hidle hreviewable
      obtain ⟨r', hround, -⟩ := exists_round hplan hreadOnly hlists hids hidle
        (hreviewable id List.mem_cons_self)
      exact ⟨_, r', .last hround⟩
  | cons next tail ih =>
      intro r before id hlists hids hidle hreviewable
      obtain ⟨hid, hrest⟩ := List.forall_mem_cons.mp hreviewable
      obtain ⟨r', hround, hidle'⟩ := exists_round hplan hreadOnly hlists hids hidle hid
      obtain ⟨-, hlists', hothers, -⟩ := hround.step hplan hlists hids
      have hnodup := hlists.nodup
      rw [hids] at hnodup
      have hnot := (List.nodup_cons.mp (List.nodup_append.mp hnodup).2.1).1
      have hids' : ids = (before ++ [id]) ++ next :: tail := by rw [hids]; simp
      obtain ⟨visited, r'', hrounds⟩ := ih hlists' hids' hidle' fun x hx => by
          obtain ⟨s, t, hget, hshown⟩ := hrest x hx
          exact ⟨s, t, by rw [(hothers x fun heq => hnot (heq ▸ hx)).2, hget], hshown⟩
      exact ⟨_, r'', .more hround hrounds⟩

end Reviewer

open Reviewer

/-- **The walk along the queue is complete, and ends.** Let a review of a batch start at a service
with a sound store. When the store is open and the times of the batch can be read and written, it
finds the first submission that is open. From there on, let every round load the submission, edit it
to final verdicts and save it with success. Then the submissions that are visited are those of the
queue, in the order of the list and each of them once; after each of them comes the next one, and
after the last one the end of the queue. At the end nothing is open any more, and a new run has
nothing left to review. Such rounds exist when all submissions of the queue can be reviewed. -/
theorem queue_walked (plan : ReviewPlan) (hplan : Plain plan)
    (r : Reviewer (Wire RunningService)) (hclient : r.desk.remote.client.AtOrigin)
    (hclock : r.desk.remote.peer.clock.Sound) (hsound : r.desk.store.Sound) :
    let batch := r.desk.store.batch plan.request.project plan.request.batch
    let queue := r.desk.store.waiting plan.request.project plan.request.batch
    (batch.Pairwise fun a b =>
      a.createdAt < b.createdAt ∨ a.createdAt = b.createdAt ∧ a.id < b.id) ∧
    (r.desk.store.isOpen = true →
      r.desk.store.BatchNear plan.request.project plan.request.batch →
        ∃ started, (firstPending plan.request).run.run r = (.ok queue.head?, started)) ∧
    ∀ first started, (firstPending plan.request).run.run r = (.ok first, started) →
      first = queue.head? ∧
      (first = none → Exhausted plan r.desk.store) ∧
      (∀ id ∈ first, Mountable plan started id) ∧
      (plan.preferences.readOnlyStatuses = [] → r.executor.busy = false →
        (∀ id ∈ queue, Reviewable r.desk.store id) → ∀ id ∈ first, ∃ visited r',
          Rounds plan started (Text.ofInt id) visited r' (.error .finished)) ∧
      ∀ id ∈ first, ∀ visited r' outcome,
        Rounds plan started (Text.ofInt id) visited r' outcome →
          visited.Nodup ∧ ∃ seen rest,
            Walked queue r.desk.store r'.desk.store visited outcome seen rest ∧
            (∀ next ∈ rest.head?, Mountable plan r' next) ∧
            (outcome = .error .finished →
              visited = queue.map Text.ofInt ∧ Exhausted plan r'.desk.store) := by
  intro batch queue
  refine ⟨hsound.batch_ordered _ _, fun hopen hnear =>
    ⟨_, firstPending_run hplan.project hplan.batch hclient hsound hopen hnear⟩, ?_⟩
  intro first started hstart
  obtain ⟨hopen, hnear⟩ := firstPending_eq_ok hplan.project hplan.batch hclient hstart
  have hrun := firstPending_run hplan.project hplan.batch hclient hsound hopen hnear
  obtain ⟨hfirst, rfl⟩ := Prod.mk.inj (hstart.symm.trans hrun)
  obtain rfl := Except.ok.inj hfirst
  have hlists := lists_of_start hplan.project hplan.batch hclient hclock hsound hopen hnear
  have hstore : (r.desk.get (Endpoint.listPath plan.request.project plan.request.batch)).1.store =
      r.desk.store := (Desk.fetched_get r.desk _).same.store
  have hsuffix : queue <:+ batch.map SubmissionRow.id := r.desk.store.waiting_suffix _ _
  refine ⟨rfl, ?_, ?_, ?_, ?_⟩
  · intro hnone
    exact exhausted_of_closed hplan hsound hopen hnear
      ((r.desk.store.waiting_eq_nil_iff _ _).mp (List.head?_eq_none_iff.mp hnone))
  · intro id hid
    exact mountable_of_lists hplan hlists (hsuffix.subset (List.mem_of_mem_head? hid))
  · intro hreadOnly hidle hreviewable id hid
    have ⟨before, hsplit⟩ := hsuffix
    obtain ⟨tail, htail⟩ : ∃ tail, queue = id :: tail := List.head?_eq_some_iff.mp hid
    rw [← hstore, htail] at hreviewable
    exact exists_rounds hplan hreadOnly hlists
      (hsplit.symm.trans (congrArg (before ++ ·) htail)) hidle hreviewable
  · intro id hid visited r' outcome hrounds
    have ⟨before, hsplit⟩ := hsuffix
    obtain ⟨tail, htail⟩ : ∃ tail, queue = id :: tail := List.head?_eq_some_iff.mp hid
    obtain ⟨hfinal, seen, rest, hwalked⟩ := hrounds.walked hplan hlists
      (hsplit.symm.trans (congrArg (before ++ ·) htail))
    rw [← htail, hstore] at hwalked
    refine ⟨?_, seen, rest, hwalked, ?_, ?_⟩
    · exact hwalked.nodup (hsuffix.sublist.nodup (hsound.nodup_batch _ _))
        fun id hid => (hlists.pos id (hsuffix.subset hid)).2
    · intro next hnext
      have hmem : next ∈ queue := by
        rw [hwalked.queue]
        exact List.mem_append_right _ (List.mem_of_mem_head? hnext)
      exact mountable_of_lists hplan hfinal (hsuffix.subset hmem)
    · intro hfinished
      obtain rfl := after_eq_finished (hwalked.outcome.symm.trans hfinished)
      refine ⟨?_, hwalked.exhausted hplan hfinal hsound rfl⟩
      rw [hwalked.visited, hwalked.queue, List.append_nil]

/-! ## A batch of January -/

/-- A submission of a day in January. -/
def Submission.ofDay (id : Int) (batch : String) (day : Nat) (status : Status) : Submission :=
  { id
    projectId := "p"
    batchId := batch
    status
    createdAt := ⟨2024, 1, day, 0, 0, 0, 0, 0⟩
    updatedAt := ⟨2024, 1, day, 0, 0, 0, 0, 0⟩ }

/-- A store with a batch that is listed in another order than it was stored. -/
def Store.january : Store :=
  { lastId := 4
    submissions :=
      [.ofSubmission (.ofDay 1 "b" 3 .rejected), .ofSubmission (.ofDay 2 "b" 1 .approved),
       .ofSubmission (.ofDay 3 "b" 2 .none), .ofSubmission (.ofDay 4 "c" 4 .none)] }

theorem Store.january_batch :
    Store.january.batch "p" "b" =
      [.ofSubmission (.ofDay 2 "b" 1 .approved), .ofSubmission (.ofDay 3 "b" 2 .none),
       .ofSubmission (.ofDay 1 "b" 3 .rejected)] := by
  have hfilter : Store.january.submissions.filter (ListFilter.mk "p" "b" .none).admits =
      [.ofSubmission (.ofDay 1 "b" 3 .rejected), .ofSubmission (.ofDay 2 "b" 1 .approved),
       .ofSubmission (.ofDay 3 "b" 2 .none)] := by
    decide +kernel
  have h12 : Store.inOrder (.ofSubmission (.ofDay 1 "b" 3 .rejected))
    (.ofSubmission (.ofDay 2 "b" 1 .approved)) = false := by decide +kernel
  have h13 : Store.inOrder (.ofSubmission (.ofDay 1 "b" 3 .rejected))
    (.ofSubmission (.ofDay 3 "b" 2 .none)) = false := by decide +kernel
  have h23 : Store.inOrder (.ofSubmission (.ofDay 2 "b" 1 .approved))
    (.ofSubmission (.ofDay 3 "b" 2 .none)) = true := by decide +kernel
  rw [Store.batch, hfilter]
  simp [List.mergeSort, List.MergeSort.Internal.splitInTwo, h12, h13, h23]

theorem Store.january_waiting : Store.january.waiting "p" "b" = [3, 1] := by
  rw [Store.waiting, Store.january_batch]
  decide +kernel

theorem Store.january_sound : Store.january.Sound := by
  refine ⟨by decide, by decide, ?_, by decide⟩
  simp only [Store.january, List.forall_mem_cons, List.not_mem_nil, false_implies, implies_true,
    and_true]
  exact ⟨⟨by decide, by decide, by decide⟩, ⟨by decide, by decide, by decide⟩,
    ⟨by decide, by decide, by decide⟩, ⟨by decide, by decide, by decide⟩⟩

/-- The days of January are read back from their columns. -/
theorem Timestamp.isKept_january {day : Nat} (h : 1 ≤ day ∧ day ≤ 31) :
    (Timestamp.mk 2024 1 day 0 0 0 0 0).IsKept :=
  ⟨⟨by simp, by simp, h, by simp, by simp, by simp, by simp⟩, by simp⟩

theorem Store.january_near : Store.january.BatchNear "p" "b" := by
  have hrow {id : Int} {day : Nat} {status : Status} (h : 1 ≤ day ∧ day ≤ 31) :
      ∃ t, Timestamp.ofColumn?
        (SubmissionRow.ofSubmission (.ofDay id "b" day status)).createdAt = some t ∧ t.IsNear :=
    ⟨_, (Timestamp.isKept_january h).ofColumn?_column, (Timestamp.isKept_january h).isNear⟩
  rw [Store.BatchNear, Store.january_batch]
  simp only [List.forall_mem_cons, List.not_mem_nil, false_implies, implies_true, and_true]
  exact ⟨hrow (by decide), hrow (by decide), hrow (by decide)⟩

theorem Store.january_reviewable : ∀ id ∈ [3, 1], Reviewable .january id := by
  have hread {id : Int} {day : Nat} {status : Status} (h : 1 ≤ day ∧ day ≤ 31) :
      (SubmissionRow.ofSubmission (.ofDay id "b" day status)).Readable :=
    SubmissionRow.readable_ofSubmission (Timestamp.isKept_january h) (Timestamp.isKept_january h)
  have hshown (row : SubmissionRow) (hrow : Store.january.row? row.id = some row)
      (hread : row.Readable) (hjson : (row.submission []).json?.isSome = true)
      (hraws : (row.submission []).RawsWithin (Json.maxHeight - 1))
      (htime : 0 ≤ row.timeElapsed) :
      Reviewable .january row.id := by
    have hparts : Store.january.partsOf row.id = [] := by
      simp [Store.partsOf, Store.january, Part.sort]
    obtain ⟨t, ht⟩ := Option.isSome_iff_exists.mp hjson
    exact ⟨_, t, Store.get_eq_ok_iff.mpr ⟨rfl, row, hrow, hread, congrArg _ hparts⟩, ht, hraws,
      htime⟩
  simp only [List.forall_mem_cons, List.not_mem_nil, false_implies, implies_true, and_true]
  exact ⟨hshown (.ofSubmission (.ofDay 3 "b" 2 .none)) rfl (hread (by decide)) (by decide +kernel)
      (Submission.rawsWithin_of_empty rfl rfl rfl rfl) (by decide),
    hshown (.ofSubmission (.ofDay 1 "b" 3 .rejected)) rfl (hread (by decide)) (by decide +kernel)
      (Submission.rawsWithin_of_empty rfl rfl rfl rfl) (by decide)⟩

/-- A review of that batch. -/
def ReviewPlan.january : ReviewPlan :=
  { request := { project := "p", batch := "b" }
    preferences := .ofSettings "" "" [] [] }

/-- A reviewer at a service with that store. -/
def Reviewer.january : Reviewer (Wire RunningService) :=
  { terminal := {}
    desk :=
      { remote :=
          { client := ⟨"http://localhost:8080"⟩
            peer := ⟨{ store := .january }, { time := fun _ => .zero, id := fun _ => "" }⟩ } } }

theorem queue_walked_in_january :
    ∃ started visited r',
      (firstPending ReviewPlan.january.request).run.run .january = (.ok (some 3), started) ∧
      Rounds .january started (Text.ofInt 3) visited r' (.error .finished) ∧
      visited = [Text.ofInt 3, Text.ofInt 1] ∧ Exhausted .january r'.desk.store := by
  have hplan : Plain .january := ⟨by decide, by decide, rfl⟩
  have hwaiting : Reviewer.january.desk.store.waiting "p" "b" = [3, 1] := Store.january_waiting
  obtain ⟨-, hstarts, hwalks⟩ := queue_walked .january hplan .january Client.atOrigin_localhost
    (fun _ => Timestamp.isKept_zero) Store.january_sound
  obtain ⟨started, hstart⟩ := hstarts rfl Store.january_near
  obtain ⟨-, -, -, hexists, hall⟩ := hwalks _ started hstart
  have hfirst : 3 ∈ (Reviewer.january.desk.store.waiting "p" "b").head? := by
    rw [hwaiting]
    rfl
  obtain ⟨visited, r', hrounds⟩ := hexists rfl rfl
    (fun id hid => Store.january_reviewable id (hwaiting ▸ hid)) 3 hfirst
  obtain ⟨-, seen, rest, -, -, hfinished⟩ := hall 3 hfirst visited r' _ hrounds
  obtain ⟨hvisited, hexhausted⟩ := hfinished rfl
  refine ⟨started, visited, r', ?_, hrounds, hvisited.trans (congrArg _ hwaiting), hexhausted⟩
  exact hstart.trans (congrArg (fun queue : List Int => (Except.ok queue.head?, started)) hwaiting)

end ReviewQueue
