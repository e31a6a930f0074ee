import ReviewQueue.Remote.Error

/-! What a remote service is to those who use it. -/

namespace ReviewQueue

/-- A service that is reached by path: it can be read from and written to, and has a clock. -/
class Remote (ω : Type) where
  fetch : ω → (path : String) → ω × Outcome
  send : ω → (method path : String) → (body : Option String) → ω × Outcome
  now : ω → Timestamp

end ReviewQueue
