import ReviewQueue.Remote.Error

/-! The cache of answers, by path.

A fetch of a path is three atomic steps: `begin` when it starts, `store` when its outcome is there,
and `conclude` when it is over. A background fetch is wrapped in one more `begin` and `conclude`.
In between, steps of other fetches may come. A failed fetch leaves the data that is there and keeps
its error beside it. -/

namespace ReviewQueue

/-- What is known of a path. -/
structure CacheEntry where
  data : Option String := none
  error : Option RequestError := none
  /-- When the data was stored. -/
  fetchedAt : Option Timestamp := none
  deriving DecidableEq, Repr, Inhabited

/-- What the cache shows of a path. -/
structure CacheView where
  data : Option String := none
  error : Option RequestError := none
  fetchedAt : Option Timestamp := none
  loading : Bool := false
  deriving DecidableEq, Repr, Inhabited

/-- What is known of a path, as a view. -/
def CacheEntry.view (e : CacheEntry) : CacheView :=
  { data := e.data, error := e.error, fetchedAt := e.fetchedAt }

/-- The entry after an outcome: data replaces everything, and a failure replaces only the error. -/
def CacheEntry.after (e : CacheEntry) (now : Timestamp) : Outcome → CacheEntry
  | .ok data => { data, fetchedAt := some now }
  | .error error => { e with error := some error }

/-- The cache: entries by path, and how many fetches of each path are pending. -/
structure Cache where
  entries : List (String × CacheEntry) := []
  pending : List (String × Nat) := []
  deriving DecidableEq, Repr, Inhabited

namespace Cache

/-- Sets the value of a key. -/
def put (key : String) (value : α) (table : List (String × α)) : List (String × α) :=
  (key, value) :: table.filter (·.1 != key)

/-- Removes a key. -/
def drop (key : String) (table : List (String × α)) : List (String × α) :=
  table.filter (·.1 != key)

/-- The entry of a path. -/
def entry? (c : Cache) (path : String) : Option CacheEntry :=
  c.entries.lookup path

/-- How many fetches of a path are pending. -/
def pendingOf (c : Cache) (path : String) : Nat :=
  (c.pending.lookup path).getD 0

/-- A fetch of a path starts. -/
def begin (c : Cache) (path : String) : Cache :=
  { c with pending := put path (c.pendingOf path + 1) c.pending }

/-- A fetch of a path is over. -/
def conclude (c : Cache) (path : String) : Cache :=
  match c.pendingOf path with
  | 0 | 1 => { c with pending := drop path c.pending }
  | n + 2 => { c with pending := put path (n + 1) c.pending }

/-- The outcome of a fetch is stored. -/
def store (c : Cache) (now : Timestamp) (path : String) (outcome : Outcome) : Cache :=
  { c with entries := put path (((c.entry? path).getD {}).after now outcome) c.entries }

/-- Data is stored as if it had just been fetched. -/
def set (c : Cache) (now : Timestamp) (path : String) (data : Option String) : Cache :=
  c.store now path (.ok data)

/-- What is stored under a path. -/
def cached (c : Cache) (path : String) : CacheView :=
  ((c.entry? path).map CacheEntry.view).getD {}

/-- What is stored under a path, and whether a fetch of it is pending. -/
def peek (c : Cache) (path : String) : CacheView :=
  { c.cached path with loading := decide (0 < c.pendingOf path) }

/-- Whether a prefetch of a path starts a fetch: only when none is pending. -/
def wantsPrefetch (c : Cache) (path : String) : Bool :=
  c.pendingOf path == 0

/-- Whether a refresh of a path starts a fetch: only when something was stored there. -/
def wantsRefresh (c : Cache) (path : String) : Bool :=
  (c.entry? path).isSome

end Cache
end ReviewQueue
