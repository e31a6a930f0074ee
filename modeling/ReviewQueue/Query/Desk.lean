import ReviewQueue.Query.Cache
import ReviewQueue.Remote.Basic

/-! A cache in front of a remote service, with its background fetches.

A background fetch is a path in `jobs`; it has begun for the cache and waits to be run. Running it
is one more fetch of the path, after which the outer one is over too. -/

namespace ReviewQueue

/-- The cache, the background fetches that were started, and the far side. -/
structure Desk (ω : Type) where
  remote : ω
  cache : Cache := {}
  /-- The paths of the background fetches, oldest first. -/
  jobs : List String := []

namespace Desk

variable [Remote ω]

/-- Fetches a path, stores the outcome, and shows what is stored then. -/
def get (d : Desk ω) (path : String) : Desk ω × CacheView :=
  let cache := d.cache.begin path
  let (remote, outcome) := Remote.fetch d.remote path
  let cache := cache.store (Remote.now remote) path outcome
  ({ d with remote, cache := cache.conclude path }, cache.cached path)

/-- Starts a background fetch. -/
def launch (d : Desk ω) (path : String) : Desk ω :=
  { d with cache := d.cache.begin path, jobs := d.jobs ++ [path] }

/-- Starts a background fetch of a path, unless a fetch of it is pending. -/
def prefetch (d : Desk ω) (path : String) : Desk ω :=
  if d.cache.wantsPrefetch path then d.launch path else d

/-- Starts a background fetch of every path that something was stored under. -/
def refresh (d : Desk ω) (paths : List String) : Desk ω :=
  paths.foldl (fun d path => if d.cache.wantsRefresh path then d.launch path else d) d

/-- The end of a background fetch whose outcome is there. -/
def land (d : Desk ω) (path : String) (outcome : Outcome) : Desk ω :=
  let cache := (d.cache.begin path).store (Remote.now d.remote) path outcome
  { d with cache := (cache.conclude path).conclude path }

/-- Runs a background fetch from its start to its end. -/
def run (d : Desk ω) (path : String) : Desk ω :=
  let (remote, outcome) := Remote.fetch d.remote path
  { d with remote }.land path outcome

/-- Runs all background fetches, oldest first. -/
def settle (d : Desk ω) : Desk ω :=
  d.jobs.foldl run { d with jobs := [] }

end Desk
end ReviewQueue
