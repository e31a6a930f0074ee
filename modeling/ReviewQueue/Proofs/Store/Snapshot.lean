import ReviewQueue.Proofs.Store.Transaction

/-!
# Requests that share a store

Any number of requests read and update one submission at the same time. A read is two statements, of
the row and of the parts; an update reads, is judged, is committed as a whole, and reads again.
Every commit keeps the status in line with the parts, but what is answered need not be what any
commit left: the row may be older than the parts beside it.

* `SharedStore.step`, `SharedStore.run` — one statement or commit of one request, and many;
* `SharedStore.alone_read`, `SharedStore.alone_update` — a request whose statements come one right
  after another shows what `Store.get` and `Store.review` do;
* `SharedStore.overtaken_read` — a read that an update overtakes;
* `SharedStore.Sound` — the invariant: every state that was committed is in line, and every reading
  has its row from one of them and its parts from another that is no older;
* `SharedStore.answered_run` — what an answer shows;
* `SharedStore.torn_answer` — an answer whose status does not follow from its parts.
-/

namespace ReviewQueue

/-! ## Requests and their steps -/

/-- A step of a request: one statement, or one transaction. -/
inductive VisitStep where
  | readRow
  | readParts
  /-- Judges an update by what was read, and writes it if nothing is wrong with it. -/
  | commit (v : Verdict)
  deriving DecidableEq, Repr

/-- What a read showed, and how many commits came before its row and before its parts were read. -/
structure Reading where
  rowAt : Nat
  partsAt : Nat
  submission : Submission
  deriving DecidableEq, Repr

/-- A request: the steps to come, the row if that was just read, and what was read. -/
structure Visit where
  rest : List VisitStep
  row? : Option (Nat × SubmissionRow) := none
  reading? : Option Reading := none
  deriving DecidableEq, Repr

namespace Visit

/-- A request, to read or to update, before its first step. -/
def of : Option Verdict → Visit
  | none => { rest := [.readRow, .readParts] }
  | some v => { rest := [.readRow, .readParts, .commit v, .readRow, .readParts] }

/-- A request that is refused. -/
def refused : Visit := { rest := [] }

/-- The request is answered with what it read. -/
def Answers (visit : Visit) (reading : Reading) : Prop :=
  visit.rest = [] ∧ visit.reading? = some reading

end Visit

/-- A store, the states that were committed before, the latest first, and the requests. -/
structure SharedStore where
  store : Store
  past : List Store := []
  visits : List Visit := []

/-- What happens next: a request comes, or one takes a step. -/
inductive VisitMove where
  | come (update : Option Verdict)
  | go (number : Nat) (now : Moment)

namespace SharedStore

/-- A request moves on. -/
def set (s : SharedStore) (number : Nat) (visit : Visit) : SharedStore :=
  { s with visits := s.visits.set number visit }

/-- A request takes a step. -/
def go (id : Int) (s : SharedStore) (number : Nat) (now : Moment) (visit : Visit)
    (rest : List VisitStep) : VisitStep → SharedStore
  | .readRow =>
    match s.store.row? id with
    | none => s.set number .refused
    | some row =>
      -- the times of the row are read at once
      match row.submission? [] with
      | .error _ => s.set number .refused
      | .ok _ => s.set number { rest, row? := some (s.past.length, row) }
  | .readParts =>
    match visit.row? with
    | none => s.set number .refused
    | some (rowAt, row) =>
      s.set number
        { rest
          reading? := some
            { rowAt, partsAt := s.past.length, submission := row.submission (s.store.partsOf id) } }
  | .commit v =>
    match visit.reading? with
    | none => s.set number .refused
    | some reading =>
      if Problem.find reading.submission v = [] then
        match s.store.commit now id v with
        | .error _ => s.set number .refused
        | .ok after =>
          { store := after, past := s.store :: s.past, visits := s.visits.set number { rest } }
      else s.set number .refused

/-- The store and its requests after a move. -/
def step (id : Int) (s : SharedStore) : VisitMove → SharedStore
  | .come update => { s with visits := s.visits ++ [.of update] }
  | .go number now =>
    match s.visits[number]? with
    | none => s
    | some visit =>
      match visit.rest with
      | [] => s
      | step :: rest => s.go id number now visit rest step

/-- The store and its requests after many moves. -/
def run (id : Int) (s : SharedStore) (moves : List VisitMove) : SharedStore :=
  moves.foldl (step id) s

@[simp] theorem run_nil (id : Int) (s : SharedStore) : s.run id [] = s := rfl

@[simp] theorem run_cons (id : Int) (s : SharedStore) (move : VisitMove) (moves : List VisitMove) :
    s.run id (move :: moves) = (s.step id move).run id moves := rfl

/-- The state of the store after so many commits. -/
def stateAt? (s : SharedStore) (commits : Nat) : Option Store :=
  (s.store :: s.past).reverse[commits]?

/-! ## Requests that are alone -/

/-- A request that takes its steps with nothing in between. -/
def alone (id : Int) (store : Store) (update : Option Verdict) (now : Moment) : SharedStore :=
  run id { store } (.come update :: (Visit.of update).rest.map fun _ => .go 0 now)

variable {s : SharedStore} {store : Store} {id : Int} {old : Submission} {number : Nat}
  {visit : Visit} {rest : List VisitStep}

theorem step_go {next : VisitStep} (hvisit : s.visits[number]? = some visit)
    (hrest : visit.rest = next :: rest) (now : Moment) :
    s.step id (.go number now) = s.go id number now visit rest next := by
  simp only [step, hvisit, hrest]

theorem go_readRow {row : SubmissionRow} (hrow : s.store.row? id = some row)
    (hread : row.Readable) (now : Moment) :
    s.go id number now visit rest .readRow =
      s.set number { rest, row? := some (s.past.length, row) } := by
  have hscan : row.submission? [] = .ok (row.submission []) :=
    SubmissionRow.submission?_eq_ok_iff.mpr ⟨hread, rfl⟩
  simp only [go, hrow, hscan]

/-- The two statements of a read, one right after the other, are one `get`. -/
theorem read_at_once (hvisit : s.visits[number]? = some visit)
    (hrest : visit.rest = .readRow :: .readParts :: rest) (hget : s.store.get id = .ok old)
    (now : Moment) :
    (s.step id (.go number now)).step id (.go number now) =
      s.set number { rest, reading? := some ⟨s.past.length, s.past.length, old⟩ } := by
  obtain ⟨-, row, hrow, hscan, rfl⟩ := Store.get_eq_ok_iff.mp hget
  let begun : Visit := { rest := .readParts :: rest, row? := some (s.past.length, row) }
  have hfirst : s.step id (.go number now) = s.set number begun :=
    (step_go hvisit hrest now).trans (go_readRow hrow hscan now)
  have hthere : (s.set number begun).visits[number]? = some begun :=
    List.getElem?_set_self (List.getElem?_eq_some_iff.mp hvisit).1
  rw [hfirst, step_go hthere rfl]
  show ({ s with visits := (s.visits.set number begun).set number _ } : SharedStore) = _
  rw [List.set_set]
  rfl

/-- An update of what was read is committed when nothing is wrong with it, and nothing was
committed since. -/
theorem commit_at_once {v : Verdict} {rowAt partsAt : Nat} (hvisit : s.visits[number]? = some visit)
    (hrest : visit.rest = .commit v :: rest)
    (hreading : visit.reading? = some ⟨rowAt, partsAt, old⟩) (hget : s.store.get id = .ok old)
    (hfind : Problem.find old v = []) (now : Moment) :
    s.step id (.go number now) =
      { store := s.store.reviewed now id v, past := s.store :: s.past
        visits := s.visits.set number { rest } } := by
  obtain ⟨-, row, hrow, -⟩ := Store.get_eq_ok_iff.mp hget
  have hcommit := Store.commit_of_known now (Store.known_of_no_problem hget hfind)
    (by rw [hrow]; rfl)
  rw [step_go hvisit hrest]
  unfold go
  rw [hreading]
  show (if Problem.find old v = [] then _ else _) = _
  rw [if_pos hfind, hcommit]

/-- A read that is alone shows the submission. -/
theorem alone_read (hget : store.get id = .ok old) (now : Moment) :
    (alone id store none now).visits = [{ rest := [], reading? := some ⟨0, 0, old⟩ }] := by
  let come : SharedStore := { store, visits := [.of none] }
  have hread : (come.step id (.go 0 now)).step id (.go 0 now) =
      come.set 0 { rest := [], reading? := some ⟨0, 0, old⟩ } := read_at_once rfl rfl hget now
  exact congrArg SharedStore.visits hread

/-- An update that is alone is committed, and shows what it left. -/
theorem alone_update {v : Verdict} (hget : store.get id = .ok old) (hfind : Problem.find old v = [])
    (now : Moment) :
    ∃ shown, store.review now id v = ((alone id store (some v) now).store, .ok shown) ∧
      (alone id store (some v) now).visits = [{ rest := [], reading? := some ⟨1, 1, shown⟩ }] := by
  let come : SharedStore := { store, visits := [.of (some v)] }
  let judged : Visit := { rest := [.commit v, .readRow, .readParts], reading? := some ⟨0, 0, old⟩ }
  let written : SharedStore :=
    { store := store.reviewed now id v, past := [store]
      visits := [{ rest := [.readRow, .readParts] }] }
  have hcome : step id { store } (.come (some v)) = come := rfl
  have hread : (come.step id (.go 0 now)).step id (.go 0 now) = come.set 0 judged :=
    read_at_once rfl rfl hget now
  have hwrite : (come.set 0 judged).step id (.go 0 now) = written :=
    commit_at_once rfl rfl rfl hget hfind now
  have hagain : (written.step id (.go 0 now)).step id (.go 0 now) =
      written.set 0 { rest := [], reading? := some ⟨1, 1, old.reviewed now v⟩ } :=
    read_at_once rfl rfl (Store.get_reviewed v now hget) now
  have hrun : alone id store (some v) now =
      written.set 0 { rest := [], reading? := some ⟨1, 1, old.reviewed now v⟩ } := by
    simp only [alone, Visit.of, List.map_cons, List.map_nil, run_cons, run_nil]
    rw [hcome, hread, hwrite, hagain]
  rw [hrun]
  exact ⟨old.reviewed now v, Store.review_of_no_problem now hget hfind, rfl⟩

/-! ## A read that is overtaken -/

/-- A read whose parts are read only after an update was committed. -/
def overtaken (v : Verdict) (now : Moment) : List VisitMove :=
  [.come none, .go 0 now, .come (some v), .go 1 now, .go 1 now, .go 1 now, .go 0 now, .go 1 now,
    .go 1 now]

/-- A read that is overtaken by an update shows the parts as the update left them, and all else as
it was before. -/
theorem overtaken_read {v : Verdict} (hget : store.get id = .ok old)
    (hfind : Problem.find old v = []) (now : Moment) :
    (run id { store } (overtaken v now)).visits =
      [{ rest := []
         reading? := some ⟨0, 1, { old with parts := (old.reviewed now v).parts }⟩ },
       { rest := [], reading? := some ⟨1, 1, old.reviewed now v⟩ }] := by
  obtain ⟨-, row, hrow, hscan, hold⟩ := Store.get_eq_ok_iff.mp hget
  let torn : Submission := { old with parts := (old.reviewed now v).parts }
  let reader : Visit := { rest := [.readParts], row? := some (0, row) }
  let read : Visit := { rest := [], reading? := some ⟨0, 1, torn⟩ }
  let judged : Visit := { rest := [.commit v, .readRow, .readParts], reading? := some ⟨0, 0, old⟩ }
  let wrote : Visit := { rest := [.readRow, .readParts] }
  let both : SharedStore := { store, visits := [reader, .of (some v)] }
  let written (first : Visit) : SharedStore :=
    { store := store.reviewed now id v, past := [store], visits := [first, wrote] }
  have hcome : (step id { store } (.come none)).step id (.go 0 now) =
      { store, visits := [reader] } := (step_go rfl rfl now).trans (go_readRow hrow hscan now)
  have hboth : step id { store, visits := [reader] } (.come (some v)) = both := rfl
  have hjudge : (both.step id (.go 1 now)).step id (.go 1 now) = both.set 1 judged :=
    read_at_once rfl rfl hget now
  have hwrite : (both.set 1 judged).step id (.go 1 now) = written reader :=
    commit_at_once rfl rfl rfl hget hfind now
  have hshown : row.submission ((store.reviewed now id v).partsOf id) = torn := by
    subst hold
    rw [Store.partsOf_reviewed]
    rfl
  have hread : (written reader).step id (.go 0 now) = written read := by
    show _ = written { rest := [], reading? := some ⟨0, 1, torn⟩ }
    rw [step_go rfl rfl, ← hshown]
    rfl
  have hend : ((written read).step id (.go 1 now)).step id (.go 1 now) =
      (written read).set 1 { rest := [], reading? := some ⟨1, 1, old.reviewed now v⟩ } :=
    read_at_once rfl rfl (Store.get_reviewed v now hget) now
  simp only [overtaken, run_cons, run_nil]
  rw [hcome, hboth, hjudge, hwrite, hread, hend]
  rfl

end SharedStore

/-- A submission of one part, which was approved. -/
def Submission.approvedPart : Submission :=
  { id := 1, status := .approved, parts := some [{ index := 0, status := .approved }] }

/-- The store that holds it. -/
def Store.approvedPart : Store :=
  { lastId := 1
    submissions := [.ofSubmission .approvedPart]
    parts := [⟨1, 0, some "APPROVED", none⟩] }

/-- The part is rejected after all. -/
def Verdict.rejectedPart : Verdict := { parts := some [⟨1, 0, .rejected, "no"⟩] }

theorem Store.approvedPart_get : Store.approvedPart.get 1 = .ok .approvedPart := by
  have hparts : Store.approvedPart.partsOf 1 = [{ index := 0, status := .approved }] := by
    simp [Store.partsOf, Store.approvedPart, PartRow.part, Column.text, Part.sort,
      Status.approved]
  have hzero := Timestamp.isKept_zero.ofColumn?_column
  refine Store.get_eq_ok_iff.mpr ⟨rfl, .ofSubmission .approvedPart, rfl, ⟨?_, ?_⟩, ?_⟩
  · exact Option.isSome_iff_exists.mpr ⟨.zero, hzero⟩
  · exact Option.isSome_iff_exists.mpr ⟨.zero, hzero⟩
  · rw [hparts]
    decide +kernel

namespace SharedStore

variable {s later : SharedStore} {store : Store} {id : Int} {old : Submission} {number : Nat}
  {visit : Visit} {rest : List VisitStep}

/-! ## The invariant -/

/-- The status of a submission that has parts follows from them: it was reviewed part by part. -/
def InLine (id : Int) (store : Store) : Prop :=
  ∃ s, store.get id = .ok s ∧ s.hasParts = true ∧ s.status = Status.ofParts s.partList

/-- Where a reading is from: the row from one committed state, and the parts from one that is no
older. -/
def Read (id : Int) (s : SharedStore) (reading : Reading) : Prop :=
  reading.rowAt ≤ reading.partsAt ∧
    ∃ early late row,
      s.stateAt? reading.rowAt = some early ∧ s.stateAt? reading.partsAt = some late ∧
      early.row? id = some row ∧ reading.submission = row.submission (late.partsOf id)

/-- What a request holds was there when it looked. -/
structure Saw (id : Int) (s : SharedStore) (visit : Visit) : Prop where
  row : ∀ rowAt row, visit.row? = some (rowAt, row) →
    ∃ early, s.stateAt? rowAt = some early ∧ early.row? id = some row
  reading : ∀ reading, visit.reading? = some reading → s.Read id reading

/-- What holds of the store between the steps of its requests. -/
structure Sound (id : Int) (s : SharedStore) : Prop where
  inLine : ∀ commits early, s.stateAt? commits = some early → InLine id early
  saw : ∀ visit ∈ s.visits, s.Saw id visit

theorem stateAt?_now (s : SharedStore) : s.stateAt? s.past.length = some s.store := by
  unfold stateAt?
  rw [List.reverse_cons, List.getElem?_append_right (by simp)]
  simp

theorem stateAt?_le {commits : Nat} {store : Store} (h : s.stateAt? commits = some store) :
    commits ≤ s.past.length := by
  have hlt := (List.getElem?_eq_some_iff.mp h).1
  simpa using Nat.le_of_lt_succ (by simpa using hlt)

/-- Committing keeps what the states before were. -/
theorem stateAt?_commit {commits : Nat} {old : Store} (h : s.stateAt? commits = some old)
    (after : Store) (visits : List Visit) :
    stateAt? { store := after, past := s.store :: s.past, visits } commits = some old := by
  have hlt := (List.getElem?_eq_some_iff.mp h).1
  unfold stateAt?
  rw [List.reverse_cons, List.getElem?_append_left hlt]
  exact h

/-- The states after a commit are those before it, and what was committed. -/
theorem stateAt?_commit_cases {commits : Nat} {after state : Store} {visits : List Visit}
    (h : stateAt? { store := after, past := s.store :: s.past, visits } commits = some state) :
    s.stateAt? commits = some state ∨ state = after := by
  unfold stateAt? at h
  rw [List.reverse_cons, List.getElem?_append] at h
  split at h
  · exact .inl h
  · obtain ⟨_, hlast⟩ := List.getElem?_eq_some_iff.mp h
    exact .inr (by simpa using hlast.symm)

/-- What a request holds stays true for as long as no state is forgotten. -/
theorem Saw.of_kept (h : s.Saw id visit)
    (hkept : ∀ commits early,
      s.stateAt? commits = some early → later.stateAt? commits = some early) :
    later.Saw id visit where
  row rowAt row hrow := by
    obtain ⟨early, hearly, hthere⟩ := h.row rowAt row hrow
    exact ⟨early, hkept rowAt early hearly, hthere⟩
  reading reading hreading := by
    obtain ⟨hle, early, late, row, hearly, hlate, hthere⟩ := h.reading reading hreading
    exact ⟨hle, early, late, row, hkept _ early hearly, hkept _ late hlate, hthere⟩

/-- A request that holds nothing. -/
theorem Saw.nothing (s : SharedStore) (rest : List VisitStep) : s.Saw id { rest } where
  row _ _ hrow := by simp at hrow
  reading _ hreading := by simp at hreading

/-- A request moves on, and the store stays as it is. -/
theorem Sound.set (h : s.Sound id) (hsaw : s.Saw id visit) : (s.set number visit).Sound id where
  inLine := h.inLine
  saw other hother := by
    have hsaw' : s.Saw id other := by
      rcases List.mem_or_eq_of_mem_set hother with hold | rfl
      · exact h.saw other hold
      · exact hsaw
    exact hsaw'.of_kept fun _ _ hearly => hearly

/-- An update that fits what was read is committed in line, whatever was committed between. -/
theorem InLine.commit {v : Verdict} {reading : Reading} {after : Store} {now : Moment}
    (hnow : InLine id store) (hparts : reading.submission.hasParts = true)
    (hfind : Problem.find reading.submission v = [])
    (hcommit : store.commit now id v = .ok after) : InLine id after := by
  obtain ⟨current, hget, hcurrent, -⟩ := hnow
  have hafter : store.reviewed now id v = after := Store.reviewed_of_commit hcommit
  have hv : v.hasParts = true := by
    have hjudged := ((Problem.find_eq_nil_iff _ v).mp hfind).2
    rw [if_pos hparts] at hjudged
    exact hjudged.1
  refine ⟨current.reviewed now v, hafter ▸ Store.get_reviewed v now hget, ?_, ?_⟩
  · show (!(current.partList.map _).isEmpty) = true
    rw [List.isEmpty_map]
    exact hcurrent
  · show (if v.hasParts then _ else _) = _
    rw [if_pos hv]
    rfl

/-- A reading shows parts. -/
theorem Sound.hasParts_of_read {reading : Reading} (h : s.Sound id) (hread : s.Read id reading) :
    reading.submission.hasParts = true := by
  obtain ⟨-, -, late, row, -, hlate, -, hreading⟩ := hread
  obtain ⟨after, hget, hafter, -⟩ := h.inLine _ late hlate
  obtain ⟨-, row', -, -, rfl⟩ := Store.get_eq_ok_iff.mp hget
  rw [hreading]
  exact hafter

/-- A request is committed, and holds nothing until it reads again. -/
theorem Sound.commit {v : Verdict} {reading : Reading} {after : Store} {now : Moment}
    (h : s.Sound id) (hread : s.Read id reading) (hfind : Problem.find reading.submission v = [])
    (hcommit : s.store.commit now id v = .ok after) :
    Sound id
      { store := after, past := s.store :: s.past, visits := s.visits.set number { rest } } := by
  have hkept : ∀ commits early, s.stateAt? commits = some early →
      stateAt? { store := after, past := s.store :: s.past, visits := s.visits.set number { rest } }
        commits = some early := fun commits early hearly => stateAt?_commit hearly after _
  refine ⟨?_, ?_⟩
  · intro commits state hstate
    rcases stateAt?_commit_cases hstate with hold | rfl
    · exact h.inLine commits state hold
    · exact (h.inLine _ s.store s.stateAt?_now).commit (h.hasParts_of_read hread) hfind hcommit
  · intro other hother
    rcases List.mem_or_eq_of_mem_set hother with hold | rfl
    · exact (h.saw other hold).of_kept hkept
    · exact .nothing _ rest

/-- One step of a request. -/
theorem Sound.go (h : s.Sound id) (hvisit : s.visits[number]? = some visit) (now : Moment)
    (next : VisitStep) : (s.go id number now visit rest next).Sound id := by
  have hsaw : s.Saw id visit := h.saw visit (List.mem_of_getElem? hvisit)
  have hrefused : (s.set number .refused).Sound id := h.set (.nothing s [])
  cases next with
  | readRow =>
      unfold SharedStore.go
      cases hrow : s.store.row? id with
      | none => exact hrefused
      | some row =>
          cases hscan : row.submission? [] with
          | error e => simpa only [hscan] using hrefused
          | ok _ =>
              simp only [hscan]
              refine h.set ⟨?_, fun _ hreading => by simp at hreading⟩
              intro rowAt row' heq
              obtain ⟨rfl, rfl⟩ : s.past.length = rowAt ∧ row = row' := by simpa using heq
              exact ⟨s.store, s.stateAt?_now, hrow⟩
  | readParts =>
      unfold SharedStore.go
      cases hrow : visit.row? with
      | none => exact hrefused
      | some seen =>
          obtain ⟨rowAt, row⟩ := seen
          refine h.set ⟨fun _ _ hrow => by simp at hrow, ?_⟩
          intro reading heq
          -- the row is from a state that was committed, and the parts are from the latest
          obtain ⟨early, hearly, hthere⟩ := hsaw.row rowAt row hrow
          obtain rfl := Option.some.inj heq
          exact ⟨stateAt?_le hearly, early, s.store, row, hearly, s.stateAt?_now, hthere, rfl⟩
  | commit v =>
      unfold SharedStore.go
      cases hreading : visit.reading? with
      | none => exact hrefused
      | some reading =>
          by_cases hfind : Problem.find reading.submission v = []
          · cases hcommit : s.store.commit now id v with
            | error e => simpa only [if_pos hfind, hcommit] using hrefused
            | ok after =>
                simp only [if_pos hfind, hcommit]
                exact h.commit (hsaw.reading reading hreading) hfind hcommit
          · simpa only [if_neg hfind] using hrefused

/-- One move. -/
theorem Sound.step (h : s.Sound id) (move : VisitMove) : (s.step id move).Sound id := by
  cases move with
  | come update =>
      refine ⟨h.inLine, ?_⟩
      intro visit hvisit
      have hsaw : s.Saw id visit := by
        rcases List.mem_append.mp hvisit with hold | hnew
        · exact h.saw visit hold
        · rw [List.mem_singleton.mp hnew]
          cases update with
          | none => exact .nothing s _
          | some v => exact .nothing s _
      exact hsaw.of_kept fun _ _ hearly => hearly
  | go number now =>
      cases hvisit : s.visits[number]? with
      | none => simpa only [SharedStore.step, hvisit] using h
      | some visit =>
          cases hrest : visit.rest with
          | nil => simpa only [SharedStore.step, hvisit, hrest] using h
          | cons next rest =>
              rw [step_go hvisit hrest now]
              exact h.go hvisit now next

/-- **Any number of moves.** -/
theorem Sound.run (h : s.Sound id) (moves : List VisitMove) : (s.run id moves).Sound id := by
  induction moves generalizing s with
  | nil => exact h
  | cons move moves ih => exact ih (h.step move)

/-- A store that nobody reads or updates yet. -/
theorem Sound.of_inLine (h : InLine id store) : Sound id { store } where
  inLine commits early hearly := by
    have hmem : early ∈ [store] := List.mem_of_getElem? hearly
    rw [List.mem_singleton.mp hmem]
    exact h
  saw visit hvisit := absurd hvisit List.not_mem_nil

/-! ## Answers -/

/-- **An answer joins two committed states**, however the requests take turns: everything but the
parts is as one commit left it, and the parts are as the same or a later one did. Both of these have
the status that follows from their parts, so the answer has it just when their statuses agree, and
an answer between whose two statements nothing was committed is what that commit left. -/
theorem answered_run (hget : store.get id = .ok old) (hparts : old.hasParts = true)
    (hstatus : old.status = Status.ofParts old.partList) (moves : List VisitMove)
    {reading : Reading} (hvisit : visit ∈ (run id { store } moves).visits)
    (hanswers : visit.Answers reading) :
    reading.rowAt ≤ reading.partsAt ∧
    ∃ early late before after,
      (run id { store } moves).stateAt? reading.rowAt = some early ∧
      (run id { store } moves).stateAt? reading.partsAt = some late ∧
      early.get id = .ok before ∧ before.status = Status.ofParts before.partList ∧
      late.get id = .ok after ∧ after.status = Status.ofParts after.partList ∧
      reading.submission = { before with parts := after.parts } ∧
      (reading.submission.status = Status.ofParts reading.submission.partList ↔
        before.status = after.status) ∧
      (reading.rowAt = reading.partsAt → reading.submission = before) := by
  have hsound : (run id { store } moves).Sound id :=
    (Sound.of_inLine ⟨old, hget, hparts, hstatus⟩).run moves
  obtain ⟨hle, early, late, row, hearly, hlate, hrow, hreading⟩ :=
    (hsound.saw visit hvisit).reading reading hanswers.2
  obtain ⟨before, hbefore, -, hinLine⟩ := hsound.inLine _ early hearly
  obtain ⟨after, hafter, -, hinLine'⟩ := hsound.inLine _ late hlate
  have hfirst : row.submission (early.partsOf id) = before := by
    obtain ⟨-, row', hrow', -, hbefore⟩ := Store.get_eq_ok_iff.mp hbefore
    rw [hrow] at hrow'
    rw [Option.some.inj hrow']
    exact hbefore
  have hsecond : after.parts = some (late.partsOf id) := by
    obtain ⟨-, row', -, -, rfl⟩ := Store.get_eq_ok_iff.mp hafter
    rfl
  have hjoined : reading.submission = { before with parts := after.parts } := by
    rw [hreading, ← hfirst, hsecond]
    rfl
  refine ⟨hle, early, late, before, after, hearly, hlate, hbefore, hinLine, hafter, hinLine',
    hjoined, ?_, ?_⟩
  · rw [hjoined, hinLine']
    exact Iff.rfl
  · intro hsame
    rw [hsame, hlate] at hearly
    rw [hreading, ← hfirst, Option.some.inj hearly]

theorem answered_run_overtaken :
    ∃ visit ∈ (run 1 { store := .approvedPart } (overtaken .rejectedPart .zero)).visits,
      ∃ reading, visit.Answers reading ∧
        ∃ before after : Submission, before.status = Status.ofParts before.partList ∧
          after.status = Status.ofParts after.partList ∧ before.status ≠ after.status ∧
          reading.submission = { before with parts := after.parts } := by
  have hvisits := overtaken_read (v := .rejectedPart) Store.approvedPart_get (by decide) .zero
  have hvisit := hvisits ▸ List.mem_cons_self
  refine ⟨_, hvisit, _, ⟨rfl, rfl⟩, ?_⟩
  obtain ⟨-, -, -, before, after, -, -, -, hbefore, -, hafter, hjoined, hiff, -⟩ :=
    answered_run Store.approvedPart_get (by decide) (by decide) _ hvisit ⟨rfl, rfl⟩
  refine ⟨before, after, hbefore, hafter, ?_, hjoined⟩
  intro hsame
  exact absurd (hiff.mpr hsame) (by decide)

/-- Both requests are answered. The read shows an approved submission whose one part is rejected. -/
theorem torn_answer :
    Store.approvedPart.get 1 = .ok .approvedPart ∧
    Submission.approvedPart.status = Status.ofParts Submission.approvedPart.partList ∧
    ∃ read updated,
      (run 1 { store := .approvedPart } (overtaken .rejectedPart .zero)).visits =
        [{ rest := [], reading? := some read }, { rest := [], reading? := some updated }] ∧
      read.submission.status = .approved ∧
      read.submission.partList = [{ index := 0, status := .rejected, feedback := "no" }] ∧
      Status.ofParts read.submission.partList = .rejected :=
  ⟨Store.approvedPart_get, by decide, _, _,
    overtaken_read Store.approvedPart_get (by decide) .zero, rfl, by decide, by decide⟩

end SharedStore
end ReviewQueue
