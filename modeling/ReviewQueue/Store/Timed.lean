import ReviewQueue.Clock
import ReviewQueue.Store.Basic

/-! The store together with the clock that dates its records.

An operation that fails leaves the store as it was, but for a review that cannot be read back; the
clock goes on in any case. -/

namespace ReviewQueue

/-- A store and its clock. -/
structure TimedStore where
  store : Store := {}
  clock : Clock

namespace TimedStore

/-- The state after an operation, and its result. -/
def after (t : TimedStore) (r : Except StoreError (Store × α)) : TimedStore × Except StoreError α :=
  match r with
  | .ok (store, a) => (⟨store, t.clock.tick⟩, .ok a)
  | .error e => ({ t with clock := t.clock.tick }, .error e)

def create (t : TimedStore) (s : Submission) : TimedStore × Except StoreError Submission :=
  t.after (t.store.create t.clock.now s)

def attach (t : TimedStore) (a : Attachment) : TimedStore × Except StoreError Attachment :=
  t.after (t.store.attach t.clock.now t.clock.fresh a)

def review (t : TimedStore) (id : Int) (v : Verdict) : TimedStore × Except StoreError Submission :=
  let (store, result) := t.store.review t.clock.now id v
  (⟨store, t.clock.tick⟩, result)

def delete (t : TimedStore) (id : Int) : TimedStore × Except StoreError Unit :=
  t.after ((t.store.delete id).map fun store => (store, ()))

end TimedStore
end ReviewQueue
