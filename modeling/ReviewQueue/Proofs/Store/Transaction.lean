import ReviewQueue.Proofs.Store.Operations

/-!
# The statements of an operation

`Store.create` and `Store.review` are one step each, but a database writes them row by row: a create
inserts a submission and then its parts one after the other, a review updates parts one after the
other and the submission last, and each of these statements can fail when earlier ones were already
written. Here the operations are spelled out as statements over a connection, which keeps what is
saved apart from what an open transaction has written so far.

* `Connection.runAll_of_error` — whichever statement fails, what is saved was not touched;
* `Connection.transact_eq` — a transaction writes all of its statements or none;
* `create_statements`, `commit_statements`, `delete_statement`, `attach_statement` — the operations
  of the store are what their statements do;
* `Connection.call_eq` — a call over a connection is the call on the store that is saved.
-/

namespace ReviewQueue

open Store (isPart setPart setRow)

/-! ## Statements -/

/-- A statement, with the keys that the tables declare. -/
inductive Statement where
  /-- Inserts a submission, which gets the next id. -/
  | insertSubmission (row : SubmissionRow)
  /-- Inserts a part of the submission that was inserted last. -/
  | insertPart (part : Part)
  | updatePart (id : Int) (d : PartVerdict)
  /-- Writes a verdict into the row of a submission. The status of the whole follows from the parts
  as the tables hold them at that point. -/
  | updateSubmission (now : Timestamp) (id : Int) (v : Verdict)
  /-- Deletes a submission; the deletion cascades. -/
  | deleteSubmission (id : Int)
  | insertAttachment (row : AttachmentRow)

/-- What a statement makes of the tables. An update or a delete that finds no row is a failure. -/
def Statement.run (tables : Store) : Statement → Except StoreError Store
  | .insertSubmission row =>
    .ok { tables with
      lastId := tables.lastId + 1
      submissions := tables.submissions ++ [{ row with id := tables.lastId + 1 }] }
  | .insertPart p =>
    if tables.parts.any (isPart tables.lastId p.index) then .error (.duplicatePart p.index)
    else if (tables.row? tables.lastId).isNone then .error (.noSubmission tables.lastId)
    else .ok { tables with parts := tables.parts ++ [.ofPart tables.lastId p] }
  | .updatePart id d =>
    if tables.parts.any (isPart id d.index) then
      .ok { tables with parts := setPart id d tables.parts }
    else .error (.noPart id d.index)
  | .updateSubmission now id v =>
    if (tables.row? id).isNone then .error (.noSubmission id)
    else
      let status := if v.hasParts then Status.ofParts (tables.partsOf id) else v.status
      let feedback := if v.hasParts then "" else v.feedback
      .ok { tables with
        submissions := setRow id status feedback v.timeElapsed now tables.submissions }
  | .deleteSubmission id =>
    if (tables.row? id).isNone then .error (.noSubmission id)
    else
      .ok { tables with
        submissions := tables.submissions.filter (·.id != id)
        parts := tables.parts.filter (·.submissionId != id)
        attachments := tables.attachments.filter (·.submissionId != id) }
  | .insertAttachment row =>
    if tables.attachments.any (·.id == row.id) then .error .duplicateAttachment
    else if (tables.row? row.submissionId).isNone then .error .orphanAttachment
    else .ok { tables with attachments := tables.attachments ++ [row] }

/-! ## Connections -/

/-- The tables as they are saved and, inside a transaction, as it has written them so far. -/
structure Connection where
  saved : Store
  pending : Option Store := none

namespace Connection

def begin (c : Connection) : Connection := { c with pending := some c.saved }

def commit (c : Connection) : Connection := ⟨c.pending.getD c.saved, none⟩

def rollback (c : Connection) : Connection := ⟨c.saved, none⟩

/-- Runs one statement, which is saved at once outside a transaction. One that fails writes
nothing. -/
def exec (c : Connection) (s : Statement) : Connection × Option StoreError :=
  match s.run (c.pending.getD c.saved) with
  | .error e => (c, some e)
  | .ok tables =>
    (if c.pending.isSome then { c with pending := some tables } else ⟨tables, none⟩, none)

/-- Runs statements up to the first that fails. -/
def runAll (c : Connection) : List Statement → Connection × Option StoreError
  | [] => (c, none)
  | s :: rest =>
    match c.exec s with
    | (c, some e) => (c, some e)
    | (c, none) => runAll c rest

/-- Runs statements in one transaction, which is rolled back when one of them fails. -/
def transact (c : Connection) (statements : List Statement) : Connection × Option StoreError :=
  match c.begin.runAll statements with
  | (c, some e) => (c.rollback, some e)
  | (c, none) => (c.commit, none)

/-! ## All or nothing -/

variable {saved tables after : Store} {statements : List Statement} {e : StoreError}

theorem exec_pending_of_ok {s : Statement} (h : s.run tables = .ok after) :
    exec ⟨saved, some tables⟩ s = (⟨saved, some after⟩, none) := by
  simp [exec, h]

theorem exec_pending_of_error {s : Statement} (h : s.run tables = .error e) :
    exec ⟨saved, some tables⟩ s = (⟨saved, some tables⟩, some e) := by
  simp [exec, h]

/-- Statements that all succeed are pending. -/
theorem runAll_of_ok (h : statements.foldlM Statement.run tables = .ok after) :
    runAll ⟨saved, some tables⟩ statements = (⟨saved, some after⟩, none) := by
  induction statements generalizing tables with
  | nil =>
      cases h
      rfl
  | cons s rest ih =>
      rw [List.foldlM_cons] at h
      cases hs : s.run tables with
      | error e =>
          rw [hs] at h
          cases h
      | ok next =>
          rw [hs] at h
          rw [runAll, exec_pending_of_ok hs]
          exact ih h

/-- Whichever statement fails, and whatever the ones before it wrote: what is saved was not
touched. -/
theorem runAll_of_error (h : statements.foldlM Statement.run tables = .error e) :
    ∃ reached, runAll ⟨saved, some tables⟩ statements = (⟨saved, some reached⟩, some e) := by
  induction statements generalizing tables with
  | nil => cases h
  | cons s rest ih =>
      rw [List.foldlM_cons] at h
      cases hs : s.run tables with
      | error e' =>
          rw [hs] at h
          cases h
          exact ⟨tables, by rw [runAll, exec_pending_of_error hs]⟩
      | ok next =>
          rw [hs] at h
          obtain ⟨reached, hreached⟩ := ih h
          refine ⟨reached, ?_⟩
          rw [runAll, exec_pending_of_ok hs]
          exact hreached

/-- **A transaction writes all of its statements or none.** -/
theorem transact_eq (saved : Store) (statements : List Statement) :
    transact ⟨saved, none⟩ statements =
      match statements.foldlM Statement.run saved with
      | .ok after => (⟨after, none⟩, none)
      | .error e => (⟨saved, none⟩, some e) := by
  cases h : statements.foldlM Statement.run saved with
  | ok after => simp [transact, begin, commit, runAll_of_ok h]
  | error e =>
      obtain ⟨reached, hreached⟩ : ∃ reached,
          runAll ⟨saved, some saved⟩ statements = (⟨saved, some reached⟩, some e) :=
        runAll_of_error h
      simp [transact, begin, rollback, hreached]

/-- A lone statement is a transaction of its own. -/
theorem exec_eq (saved : Store) (s : Statement) :
    exec ⟨saved, none⟩ s =
      match s.run saved with
      | .ok after => (⟨after, none⟩, none)
      | .error e => (⟨saved, none⟩, some e) := by
  cases h : s.run saved <;> simp [exec, h]

end Connection

/-! ## Calls -/

/-- An attachment as it is about to be stored: with its id and its time. -/
def Attachment.prepared (now : Timestamp) (fresh : String) (a : Attachment) : Attachment :=
  { a with
    id := if a.id = "" then fresh else a.id
    createdAt := if a.createdAt.isZero then now else a.createdAt }

/-- A call that changes the store, with the time and the id it takes from outside. -/
inductive StoreCall where
  | create (now : Timestamp) (s : Submission)
  | review (now : Timestamp) (id : Int) (v : Verdict)
  | delete (id : Int)
  | attach (now : Timestamp) (fresh : String) (a : Attachment)

/-- What a call that succeeds returns. -/
inductive StoreAnswer where
  | created (s : Submission)
  | reviewed (s : Submission)
  | deleted
  | attached (a : Attachment)

/-- The store after a call, and its answer. Only a review may fail with a new store. -/
def Store.perform (store : Store) : StoreCall → Store × Except StoreError StoreAnswer
  | .create now s =>
    match store.create now s with
    | .ok (after, new) => (after, .ok (.created new))
    | .error e => (store, .error e)
  | .review now id v =>
    let (after, result) := store.review now id v
    (after, result.map .reviewed)
  | .delete id =>
    match store.delete id with
    | .ok after => (after, .ok .deleted)
    | .error e => (store, .error e)
  | .attach now fresh a =>
    match store.attach now fresh a with
    | .ok (after, new) => (after, .ok (.attached new))
    | .error e => (store, .error e)

/-- The statements of a call. -/
def StoreCall.statements : StoreCall → List Statement
  | .create now s =>
    .insertSubmission (.ofSubmission { s with
      createdAt := if s.createdAt.isZero then now else s.createdAt
      updatedAt := now }) :: s.partList.map .insertPart
  | .review now id v => v.partList.map (.updatePart id) ++ [.updateSubmission now id v]
  | .delete id => [.deleteSubmission id]
  | .attach now fresh a => [.insertAttachment (.ofAttachment (a.prepared now fresh))]

/-- The error of what failed. -/
def storeErrorOf : Except StoreError α → Option StoreError
  | .ok _ => none
  | .error e => some e

/-- A call over a connection: a create and a review in a transaction, the others as one statement.
A review reads the submission after its transaction. -/
def Connection.call (c : Connection) (call : StoreCall) : Connection × Option StoreError :=
  match call with
  | .create .. => c.transact call.statements
  | .review _ id _ =>
    match c.transact call.statements with
    | (c, some e) => (c, some e)
    | (c, none) => (c, storeErrorOf (c.saved.get id))
  | .delete .. | .attach .. => c.runAll call.statements

namespace Store

variable {store after : Store} {now : Timestamp} {id : Int} {v : Verdict} {s : Submission}

/-- Parts are inserted until one repeats an index. `earlier` are the indexes that the submission
has so far. -/
theorem insert_parts {tables : Store} {earlier : List Int} (parts : List Part)
    (hrow : (tables.row? tables.lastId).isNone = false)
    (hearlier : ∀ index,
      tables.parts.any (isPart tables.lastId index) = decide (index ∈ earlier)) :
    (parts.map Statement.insertPart).foldlM Statement.run tables =
      match Part.repeatedIndex? earlier parts with
      | some index => .error (.duplicatePart index)
      | none => .ok { tables with
          parts := tables.parts ++ parts.map (.ofPart tables.lastId) } := by
  induction parts generalizing tables earlier with
  | nil => simp [Part.repeatedIndex?, pure, Except.pure]
  | cons p rest ih =>
      rw [List.map_cons, List.foldlM_cons]
      by_cases hp : p.index ∈ earlier
      · simp [Statement.run, Part.repeatedIndex?, hearlier, hp, bind, Except.bind]
      · let next : Store := { tables with
          parts := tables.parts ++ [.ofPart tables.lastId p] }
        have hrun : Statement.run tables (.insertPart p) = .ok next := by
          simp only [Statement.run, hearlier, hp, hrow, decide_false, Bool.false_eq_true, if_false,
            next]
        have hrowNext : (next.row? next.lastId).isNone = false := hrow
        have hnext : ∀ index,
            next.parts.any (isPart next.lastId index) = decide (index ∈ p.index :: earlier) := by
          intro index
          simp only [next]
          rw [List.any_append, hearlier, Bool.or_comm]
          simp [isPart, PartRow.ofPart, beq_eq_decide, eq_comm]
        rw [hrun]
        refine (ih hrowNext hnext).trans ?_
        simp [Part.repeatedIndex?, hp, next]

/-- A create is its statements. -/
theorem create_statements (hopen : store.isOpen = true) (hbounded : store.Bounded)
    (now : Timestamp) (s : Submission) :
    (StoreCall.create now s).statements.foldlM Statement.run store =
      (store.create now s).map Prod.fst := by
  let inserted : Store := { store with
    lastId := store.lastId + 1
    submissions := store.submissions ++ [.ofSubmission (store.prepared now s)] }
  have hrow : (inserted.row? inserted.lastId).isNone = false := by
    have hlast : (SubmissionRow.ofSubmission (store.prepared now s)).id = store.lastId + 1 := rfl
    simp [inserted, row?, hlast]
  -- no part belongs to an id that was not handed out yet
  have hnone : ∀ index,
      inserted.parts.any (isPart inserted.lastId index) = decide (index ∈ []) := by
    intro index
    rw [decide_eq_false List.not_mem_nil, List.any_eq_false]
    intro p hp
    have := hbounded.parts p hp
    simp only [inserted, isPart, Bool.and_eq_true, beq_iff_eq, not_and]
    omega
  have hparts := insert_parts s.partList hrow hnone
  rw [StoreCall.statements, List.foldlM_cons]
  refine Eq.trans hparts ?_
  unfold create
  cases hrepeated : Part.repeatedIndex? [] s.partList <;>
    simp [hopen, Except.map, inserted, prepared]

/-- Part updates in sequence are their statements. -/
theorem update_parts (tables : Store) (verdicts : List PartVerdict) :
    (verdicts.map (Statement.updatePart id)).foldlM Statement.run tables =
      (setParts id tables.parts verdicts).map fun parts => { tables with parts } := by
  induction verdicts generalizing tables with
  | nil => rfl
  | cons d rest ih =>
      rw [List.map_cons, List.foldlM_cons, setParts]
      by_cases hd : tables.parts.any (isPart id d.index) = true
      · simp only [Statement.run, hd, if_true]
        exact ih { tables with parts := setPart id d tables.parts }
      · simp [Statement.run, hd, bind, Except.bind, Except.map]

/-- What a review commits is its statements. -/
theorem commit_statements (store : Store) (now : Timestamp) (id : Int) (v : Verdict) :
    (StoreCall.review now id v).statements.foldlM Statement.run store =
      store.commit now id v := by
  rw [StoreCall.statements, List.foldlM_append, update_parts]
  unfold commit
  cases hset : setParts id store.parts v.partList with
  | error e => rfl
  | ok parts =>
      have hrow : ({ store with parts } : Store).row? id = store.row? id := rfl
      cases hfound : store.row? id with
      | none => simp [Except.map, bind, Except.bind, Statement.run, hrow, hfound]
      | some r =>
          simp [Except.map, bind, Except.bind, Statement.run, hrow, hfound, pure, Except.pure]

/-- A delete is its statement. -/
theorem delete_statement (hopen : store.isOpen = true) (id : Int) :
    (Statement.deleteSubmission id).run store = store.delete id := by
  simp [Statement.run, delete, hopen]

theorem attach_eq (hopen : store.isOpen = true) (now : Timestamp) (fresh : String)
    (a : Attachment) :
    store.attach now fresh a =
      let new := a.prepared now fresh
      if store.attachments.any (·.id == new.id) then .error .duplicateAttachment
      else if (store.row? new.submissionId).isNone then .error .orphanAttachment
      else
        .ok ({ store with attachments := store.attachments ++ [.ofAttachment new] }, new) := by
  rw [attach, hopen]
  rfl

/-- Attaching is its statement. -/
theorem attach_statement (hopen : store.isOpen = true) (now : Timestamp) (fresh : String)
    (a : Attachment) :
    (Statement.insertAttachment (.ofAttachment (a.prepared now fresh))).run store =
      (store.attach now fresh a).map Prod.fst := by
  rw [attach_eq hopen]
  generalize a.prepared now fresh = new
  cases hused : store.attachments.any (·.id == new.id) <;>
    cases hrow : store.row? new.submissionId <;>
      simp [Statement.run, AttachmentRow.ofAttachment, hused, hrow, Except.map]

/-! ## Calls over a connection -/

/-- Every call is its statements: it leaves the store as they do, and as it was when one of them
fails. -/
theorem perform_statements (hopen : store.isOpen = true) (hbounded : store.Bounded)
    (call : StoreCall) :
    match call.statements.foldlM Statement.run store with
    | .ok after => (store.perform call).1 = after
    | .error e => store.perform call = (store, .error e) := by
  cases call with
  | create now s =>
      rw [create_statements hopen hbounded, perform]
      cases store.create now s <;> rfl
  | review now id v =>
      rw [commit_statements, perform]
      simp only [review, hopen, Bool.not_true, Bool.false_eq_true, if_false]
      cases store.commit now id v <;> rfl
  | delete id =>
      rw [StoreCall.statements, List.foldlM_cons, delete_statement hopen, perform]
      cases store.delete id <;> rfl
  | attach now fresh a =>
      rw [StoreCall.statements, List.foldlM_cons, attach_statement hopen, perform]
      cases store.attach now fresh a <;> rfl

end Store

/-- **A call over a connection is the call on the store that is saved**, whether it succeeds or
not. -/
theorem Connection.call_eq {saved : Store} (hopen : saved.isOpen = true) (hbounded : saved.Bounded)
    (call : StoreCall) :
    Connection.call ⟨saved, none⟩ call =
      (⟨(saved.perform call).1, none⟩, storeErrorOf (saved.perform call).2) := by
  cases call with
  | create now s =>
      rw [Connection.call, transact_eq, Store.create_statements hopen hbounded, Store.perform]
      cases saved.create now s <;> rfl
  | review now id v =>
      rw [Connection.call, transact_eq, Store.commit_statements, Store.perform]
      simp only [Store.review, hopen, Bool.not_true, Bool.false_eq_true, if_false]
      cases saved.commit now id v with
      | error e => rfl
      | ok after =>
          cases hget : after.get id <;> simp [hget, storeErrorOf, Except.map]
  | delete id =>
      simp only [call, StoreCall.statements, runAll, exec_eq, Store.delete_statement hopen,
        Store.perform]
      cases saved.delete id <;> rfl
  | attach now fresh a =>
      simp only [call, StoreCall.statements, runAll, exec_eq, Store.attach_statement hopen,
        Store.perform]
      cases saved.attach now fresh a <;> rfl

end ReviewQueue
