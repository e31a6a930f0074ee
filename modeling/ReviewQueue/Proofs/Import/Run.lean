import ReviewQueue.Import.Run
import ReviewQueue.Proofs.Store.Operations

/-!
# What an import keeps

An import is a series of creates and attachments that may stop at any of them. `run_keeps` is the
induction over all such series: what every create of a record of the file and every attachment
keeps is kept by the import, however far it gets.
-/

namespace ReviewQueue.Import

/-- A property of stores that no create of a record breaks, at any reading of a clock. -/
def KeptByCreate (P : Store → Prop) (time : Nat → Timestamp) (f : ImportFile) (r : ImportRecord) :
    Prop :=
  ∀ store k after new, P store → store.Created (time k) (submission f r) after new → P after

/-- A property of stores that no attachment breaks. -/
def KeptByAttach (P : Store → Prop) : Prop :=
  ∀ store after new, P store → store.Attached new after → P after

/-- A store that has a property, with a clock of given readings. -/
structure Holds (P : Store → Prop) (time : Nat → Timestamp) (t : TimedStore) : Prop where
  store : P t.store
  time : t.clock.time = time

variable {P : Store → Prop} {time : Nat → Timestamp} {f : ImportFile}

theorem Holds.tick {t : TimedStore} (h : Holds P time t) :
    Holds P time { t with clock := t.clock.tick } :=
  ⟨h.store, h.time⟩

/-- The attachments of a record, up to the first that fails. -/
theorem attachAll_keeps (attach : KeptByAttach P) (id : Int)
    (attachments : List ImportAttachment) (t : TimedStore) (h : Holds P time t) :
    Holds P time (attachAll id t attachments).1 := by
  induction attachments generalizing t with
  | nil => exact h
  | cons a rest ih =>
      simp only [attachAll, TimedStore.attach]
      cases hstep : t.store.attach t.clock.now t.clock.fresh (attachment id a) with
      | error e => exact h.tick
      | ok result => exact ih _ ⟨attach _ _ _ h.store (Store.attached_of_ok hstep), h.time⟩

/-- One record, created with its attachments or not at all. -/
theorem createOne_keeps {r : ImportRecord} (create : KeptByCreate P time f r)
    (attach : KeptByAttach P) (t : TimedStore) (h : Holds P time t) :
    Holds P time (createOne f t r).1 := by
  simp only [createOne, TimedStore.create]
  cases hstep : t.store.create t.clock.now (submission f r) with
  | error e => exact h.tick
  | ok result =>
      have hcreated := Store.created_of_ok hstep
      rw [Clock.now, h.time] at hcreated
      -- the attachments come after the submission, which stays when one of them fails
      exact attachAll_keeps attach _ _ _ ⟨create _ _ _ _ h.store hcreated, h.time⟩

theorem step_keeps {r : ImportRecord} (create : KeptByCreate P time f r) (attach : KeptByAttach P)
    (i : Import) (h : Holds P time i.stored) : Holds P time (step f i r).1.stored := by
  unfold step
  split
  · exact h
  · split
    · exact h
    · have hone := createOne_keeps create attach i.stored h
      rcases hresult : createOne f i.stored r with ⟨stored, _ | e⟩ <;>
        rw [hresult] at hone <;> exact hone

theorem steps_keeps {records : List ImportRecord}
    (create : ∀ r ∈ records, KeptByCreate P time f r) (attach : KeptByAttach P) (i : Import)
    (h : Holds P time i.stored) : Holds P time (steps f i records).1.stored := by
  induction records generalizing i with
  | nil => exact h
  | cons r rest ih =>
      have hstep := step_keeps (create r List.mem_cons_self) attach i h
      unfold steps
      rcases hresult : step f i r with ⟨next, _ | e⟩
      · rw [hresult] at hstep
        exact ih (fun r hr => create r (List.mem_cons_of_mem _ hr)) next hstep
      · rw [hresult] at hstep
        exact hstep

/-- What every create of a record and every attachment keeps is kept by the import. -/
theorem run_keeps {t : TimedStore} (create : ∀ r ∈ f.records, KeptByCreate P t.clock.time f r)
    (attach : KeptByAttach P) (c : Console) (h : P t.store) : P (run f t c).1.stored.store := by
  unfold run
  cases t.store.list { projectId := f.project, batchId := f.batch } with
  | error e => exact h
  | ok existing =>
      have hsteps := steps_keeps create attach
        { stored := t, console := c, titles := existing.map Summary.title } ⟨h, rfl⟩
      rcases hresult : steps f { stored := t, console := c, titles := existing.map Summary.title }
        f.records with ⟨i, _ | e⟩ <;>
        rw [hresult] at hsteps <;> simpa [hresult] using hsteps.store

end ReviewQueue.Import
